/-
Baselib.Core.NumberUtilsTheorems — a coercion gives the number or refuses.

Every comparison the code makes has two operands of one type, so it is the
comparison of the integers. The bounds it compares with are those of the
target type, converted to the source type only where that represents them.
-/
import Baselib.Core.NumberUtils

namespace Baselib.Core.NumberUtils

open Lib (IntType)
open Lib.IntType (Represents)

variable {ε : Type} {ehCallback : Option (Except ε Unit)} {T U : IntType}

/-! ## Runs -/

/-- The computation comes to `r` after the comparisons `cs`. -/
def Runs {α : Type} (m : Coercion ε α) (r : Except (Exception ε) α) (cs : List Comparison) : Prop :=
  ∀ log, m.run.run log = (r, log ++ cs)

/-- The comparison is the one of the integers. -/
def Comparison.Exact (c : Comparison) : Prop := c.holds = true ↔ c.says

theorem exact_of_same (x y : U.Value) (op : Operator) : Comparison.Exact ⟨x, op, y⟩ := by
  cases op <;> simp [Comparison.Exact, Comparison.holds, Comparison.says]

theorem Runs.pure {α : Type} (a : α) : Runs (ε := ε) (pure a) (.ok a) [] := by
  intro log
  simp [ExceptT.run_pure, StateT.run_pure]
  rfl

theorem Runs.throw {α : Type} (e : Exception ε) : Runs (throw e : Coercion ε α) (.error e) [] := by
  intro log
  simp
  rfl

theorem Runs.compare (c : Comparison) : Runs (ε := ε) (compare c) (.ok c.holds) [c] := by
  intro log
  rfl

theorem Runs.bind {α β : Type} {m : Coercion ε α} {f : α → Coercion ε β} {a : α}
    {r : Except (Exception ε) β} {cs cs' : List Comparison} (hm : Runs m (.ok a) cs)
    (hf : Runs (f a) r cs') : Runs (m >>= f) r (cs ++ cs') := by
  intro log
  have h := hf (log ++ cs)
  simp only [ExceptT.run_bind, StateT.run_bind, hm log]
  rwa [← List.append_assoc]

theorem Runs.bind_error {α β : Type} {m : Coercion ε α} {f : α → Coercion ε β} {e : Exception ε}
    {cs : List Comparison} (hm : Runs m (.error e) cs) : Runs (m >>= f) (.error e) cs := by
  intro log
  simp only [ExceptT.run_bind, StateT.run_bind, hm log]
  rfl

/-- The comparisons are exact and the computation comes to `r`. -/
def Comes {α : Type} (m : Coercion ε α) (r : Except (Exception ε) α) : Prop :=
  ∃ cs, Runs m r cs ∧ ∀ c ∈ cs, Comparison.Exact c

theorem Comes.pure {α : Type} (a : α) : Comes (ε := ε) (pure a) (.ok a) :=
  ⟨[], Runs.pure a, by simp⟩

theorem Comes.throw {α : Type} (e : Exception ε) : Comes (throw e : Coercion ε α) (.error e) :=
  ⟨[], Runs.throw e, by simp⟩

theorem Comes.compare (x y : U.Value) (op : Operator) :
    Comes (ε := ε) (compare ⟨x, op, y⟩) (.ok (Comparison.holds ⟨x, op, y⟩)) := by
  refine ⟨_, Runs.compare _, ?_⟩
  intro c hc
  rw [List.mem_singleton] at hc
  rw [hc]
  exact exact_of_same x y op

theorem Comes.bind {α β : Type} {m : Coercion ε α} {f : α → Coercion ε β} {a : α}
    {r : Except (Exception ε) β} (hm : Comes m (.ok a)) (hf : Comes (f a) r) :
    Comes (m >>= f) r := by
  obtain ⟨cs, hm, hcs⟩ := hm
  obtain ⟨cs', hf, hcs'⟩ := hf
  refine ⟨cs ++ cs', hm.bind hf, ?_⟩
  intro c hc
  rcases List.mem_append.mp hc with hc | hc
  · exact hcs c hc
  · exact hcs' c hc

theorem Comes.bind_error {α β : Type} {m : Coercion ε α} {f : α → Coercion ε β} {e : Exception ε}
    (hm : Comes m (.error e)) : Comes (m >>= f) (.error e) := by
  obtain ⟨cs, hm, hcs⟩ := hm
  exact ⟨cs, hm.bind_error, hcs⟩

/-! ## The helpers -/

/-- What a number out of range comes to: the callback throws, or the code
does. -/
def refusal (ehCallback : Option (Except ε Unit)) (message : String) : Exception ε :=
  match ehCallback with
  | some (.error e) => .callback e
  | _ => .numberCoerce message

/-- The caller gave no callback, or one which does not return. -/
def Refuses (ehCallback : Option (Except ε Unit)) : Prop := ehCallback ≠ some (.ok ())

theorem callOrThrow_comes (h : Refuses ehCallback) (message : String) :
    Comes (callOrThrow ehCallback message) (.error (refusal ehCallback message)) := by
  rcases ehCallback with - | (e | ⟨⟨⟩⟩)
  · exact Comes.throw _
  · exact Comes.throw _
  · exact absurd rfl h

/-- Below the minimum is what the comparison says, whichever bound is
compared with. -/
theorem isBelowMinimum_comes (value : U.Value) (hU : U.isSigned = true) :
    ∃ b, (b = true ↔ value.val < T.min) ∧
      Comes (ε := ε) (isBelowMinimum T value) (.ok b) := by
  unfold isBelowMinimum
  split_ifs with hT hsize
  · refine ⟨_, ?_, Comes.compare _ _ _⟩
    simp [Comparison.holds, IntType.ofInt_val U.represents_zero, IntType.min, hT]
  · refine ⟨_, ?_, Comes.compare _ _ _⟩
    have hmin : U.Represents T.min := T.represents_min.widen hsize (.inl hU)
    have hcast : (U.cast T.minimum).val = T.min := IntType.cast_val hmin
    simp [Comparison.holds, hcast]
  · refine ⟨false, ?_, Comes.pure _⟩
    have hvalue := value.represents.same (T := U) (U := T) (by omega) (.inl (by simp [hU, hT]))
    have hmin := hvalue.1
    simp only [Bool.false_eq_true, false_iff, not_lt]
    exact hmin

theorem chkNumberLowerBound_comes (value : U.Value) (h : Refuses ehCallback) :
    Comes (chkNumberLowerBound T value ehCallback)
      (if value.val < T.min then .error (refusal ehCallback (belowMinimumMessage T value))
        else .ok ()) := by
  unfold chkNumberLowerBound
  split_ifs with hU hbelow hbelow
  · obtain ⟨b, hb, hcomes⟩ := isBelowMinimum_comes (ε := ε) (T := T) value hU
    refine hcomes.bind ?_
    rw [if_pos (hb.mpr hbelow)]
    exact callOrThrow_comes h _
  · obtain ⟨b, hb, hcomes⟩ := isBelowMinimum_comes (ε := ε) (T := T) value hU
    refine hcomes.bind ?_
    rw [if_neg (fun hbtrue => hbelow (hb.mp hbtrue))]
    exact Comes.pure _
  · have hvalue := (IntType.represents_unsigned (by simpa using hU)).mp value.represents
    have hmin := T.min_le
    omega
  · exact Comes.pure _

/-- A number which the target type represents comes back from it. -/
theorem assert_comes (debug : Bool) {value : U.Value} (h : T.Represents value.val) :
    Comes (ε := ε) (assert debug ⟨U.cast (T.cast value), .equal, value⟩) (.ok ()) := by
  have hcast : (T.cast value).val = value.val := IntType.cast_val h
  have hback : (U.cast (T.cast value)).val = value.val := by
    rw [IntType.cast, IntType.ofInt_val (by rw [hcast]; exact value.represents), hcast]
  have hholds : Comparison.holds ⟨U.cast (T.cast value), .equal, value⟩ = true := by
    simp [Comparison.holds, hback]
  cases debug with
  | false => exact Comes.pure _
  | true =>
    refine (Comes.compare _ _ _).bind ?_
    rw [if_pos hholds]
    exact Comes.pure _

/-- Where the upper bound is not checked, no value of the source exceeds it. -/
theorem represents_of_not_checkIfItFits (h : ¬checkIfItFits T U) {value : U.Value}
    (hmin : T.min ≤ value.val) : T.Represents value.val := by
  simp only [checkIfItFits, not_or, not_and, Bool.not_eq_false] at h
  obtain ⟨hsize, hsign⟩ := h
  cases hT : T.isSigned with
  | true =>
    by_cases hlt : U.size < T.size
    · exact value.represents.widen hlt (.inl hT)
    · exact value.represents.same (by omega) (.inl (by rw [hT, hsign (by omega) hT]))
  | false =>
    rw [IntType.min, if_neg (by simp [hT])] at hmin
    exact value.represents.same (by omega) (.inr ⟨hT, hmin⟩)

theorem represents_max_of_checkIfItFits (h : checkIfItFits T U) : U.Represents T.max := by
  rcases h with hlt | ⟨hsize, -, hU⟩
  · exact T.represents_max.widen hlt (.inr T.max_nonneg)
  · exact T.represents_max.same hsize.le (.inr ⟨hU, T.max_nonneg⟩)

theorem coerceChecked_comes (debug : Bool) (value : U.Value) (h : Refuses ehCallback) (hfits : ¬checkIfItFits T U) :
    Comes (coerceChecked debug T value ehCallback)
      (if value.val < T.min then .error (refusal ehCallback (belowMinimumMessage T value))
        else .ok (T.cast value)) := by
  have hlower := chkNumberLowerBound_comes (T := T) value h
  split_ifs at hlower ⊢ with hbelow
  · exact hlower.bind_error
  · have hrepresents := represents_of_not_checkIfItFits hfits (not_lt.mp hbelow)
    exact hlower.bind ((assert_comes debug hrepresents).bind (Comes.pure _))

theorem coerceCheckedIfItFits_comes (debug : Bool) (value : U.Value) (h : Refuses ehCallback) (hfits : checkIfItFits T U) :
    Comes (coerceCheckedIfItFits debug T value ehCallback)
      (if value.val < T.min then .error (refusal ehCallback (belowMinimumMessage T value))
        else if T.max < value.val then
          .error (refusal ehCallback (aboveMaximumMessage T value))
        else .ok (T.cast value)) := by
  have hlower := chkNumberLowerBound_comes (T := T) value h
  have hmax : (U.cast T.maximum).val = T.max :=
    IntType.cast_val (represents_max_of_checkIfItFits hfits)
  have hholds :
      Comparison.holds ⟨value, .greater, U.cast T.maximum⟩ = decide (T.max < value.val) := by
    simp [Comparison.holds, hmax]
  split_ifs at hlower ⊢ with hbelow habove
  · exact hlower.bind_error
  · refine hlower.bind ((Comes.compare _ _ _).bind ?_)
    rw [if_pos (by simpa [hholds] using habove)]
    exact (callOrThrow_comes h _).bind_error
  · refine hlower.bind ((Comes.compare _ _ _).bind ?_)
    rw [if_neg (by simpa [hholds] using habove)]
    exact (assert_comes debug ⟨not_lt.mp hbelow, not_lt.mp habove⟩).bind (Comes.pure _)

/-! ## The coercion -/

theorem safeCoerceTo_comes (debug : Bool) (T : IntType) (value : U.Value) (h : Refuses ehCallback) :
    Comes (safeCoerceTo debug T value ehCallback)
      (if value.val < T.min then .error (refusal ehCallback (belowMinimumMessage T value))
        else if T.max < value.val then
          .error (refusal ehCallback (aboveMaximumMessage T value))
        else .ok (T.cast value)) := by
  unfold safeCoerceTo
  by_cases hfits : checkIfItFits T U
  · rw [if_pos hfits]
    exact coerceCheckedIfItFits_comes debug value h hfits
  · rw [if_neg hfits]
    have hcomes := coerceChecked_comes debug value h hfits
    by_cases hbelow : value.val < T.min
    · rw [if_pos hbelow] at hcomes ⊢
      exact hcomes
    · have hmax := (represents_of_not_checkIfItFits hfits (not_lt.mp hbelow)).2
      rw [if_neg hbelow] at hcomes ⊢
      rwa [if_neg (not_lt.mpr hmax)]

/-- The coercion gives the same integer, or throws when the target type does
not represent it. No comparison is other than that of the integers. -/
theorem safeCoerceTo_exact (debug : Bool) (T U : IntType) (value : U.Value) :
    let coerced := evaluate (ε := ε) (safeCoerceTo debug T value none)
    (T.Represents value.val → ∃ result, coerced.1 = .ok result ∧ result.val = value.val) ∧
    (¬T.Represents value.val → ∃ message, coerced.1 = .error (.numberCoerce message)) ∧
    ∀ c ∈ coerced.2, c.holds = true ↔ c.says := by
  intro coerced
  have hrefuses : Refuses (ε := ε) none := nofun
  obtain ⟨cs, hruns, hcs⟩ := safeCoerceTo_comes debug T value hrefuses
  have hcoerced : coerced = (_, [] ++ cs) := hruns []
  rw [hcoerced]
  refine ⟨fun h => ?_, fun h => ?_, fun c hc => hcs c hc⟩
  · rw [if_neg (not_lt.mpr h.1), if_neg (not_lt.mpr h.2)]
    exact ⟨_, rfl, IntType.cast_val h⟩
  · by_cases hbelow : value.val < T.min
    · exact ⟨_, by rw [if_pos hbelow]; rfl⟩
    · have habove : T.max < value.val := by
        simp only [IntType.Represents, not_and, not_le] at h
        exact h (not_lt.mp hbelow)
      exact ⟨_, by rw [if_neg hbelow, if_pos habove]; rfl⟩

end Baselib.Core.NumberUtils
