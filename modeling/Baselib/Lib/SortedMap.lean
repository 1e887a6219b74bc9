/-
Baselib.Lib.SortedMap — `std::map`: a map whose iteration is in the
order of its keys.

`assign` is `m[ k ] = v`. What it does to the entries is said as a
permutation, with the value it displaces on the other side; two maps
with the same entries are one map, so the order in which distinct keys
were assigned does not show.
-/
import Baselib.Lib.AssocList
import Mathlib.Data.List.Sort

namespace Baselib.Lib

/-- The entries in the order of their keys. -/
structure SortedMap (κ ν : Type) [LinearOrder κ] where
  entries : List (κ × ν)
  sorted : entries.Pairwise fun a b => a.1 < b.1

namespace SortedMap

open scoped List

variable {κ ν : Type} [LinearOrder κ]

def empty : SortedMap κ ν := ⟨[], List.Pairwise.nil⟩

def keys (m : SortedMap κ ν) : List κ := m.entries.map Prod.fst

/-- The values, in the order of the iteration. -/
def values (m : SortedMap κ ν) : List ν := m.entries.map Prod.snd

def size (m : SortedMap κ ν) : Nat := m.entries.length

def lookup (m : SortedMap κ ν) (k : κ) : Option ν := m.entries.lookup k

/-! ## Assignment -/

def assignEntry (k : κ) (v : ν) : List (κ × ν) → List (κ × ν)
  | [] => [(k, v)]
  | e :: es =>
    if k < e.1 then (k, v) :: e :: es
    else if k = e.1 then (k, v) :: es
    else e :: assignEntry k v es

theorem mem_assignEntry {k : κ} {v : ν} {es : List (κ × ν)} {x : κ × ν}
    (h : x ∈ assignEntry k v es) : x = (k, v) ∨ x ∈ es := by
  induction es with
  | nil => exact .inl (List.mem_singleton.mp h)
  | cons e es ih =>
    unfold assignEntry at h
    split at h
    · exact List.mem_cons.mp h
    · split at h
      · exact (List.mem_cons.mp h).imp_right (List.mem_cons_of_mem _)
      · rcases List.mem_cons.mp h with rfl | h
        · exact .inr List.mem_cons_self
        · exact (ih h).imp_right (List.mem_cons_of_mem _)

theorem assignEntry_sorted (k : κ) (v : ν) {es : List (κ × ν)}
    (h : es.Pairwise fun a b => a.1 < b.1) :
    (assignEntry k v es).Pairwise fun a b => a.1 < b.1 := by
  induction es with
  | nil => exact List.pairwise_singleton _ _
  | cons e es ih =>
    obtain ⟨he, hes⟩ := List.pairwise_cons.mp h
    unfold assignEntry
    by_cases hlt : k < e.1
    · rw [if_pos hlt]
      refine List.pairwise_cons.mpr ⟨fun x hx => ?_, h⟩
      rcases List.mem_cons.mp hx with rfl | hx
      · exact hlt
      · exact hlt.trans (he x hx)
    · rw [if_neg hlt]
      by_cases heq : k = e.1
      · rw [if_pos heq]
        exact List.pairwise_cons.mpr ⟨fun x hx => heq ▸ he x hx, hes⟩
      · rw [if_neg heq]
        refine List.pairwise_cons.mpr ⟨fun x hx => ?_, ih hes⟩
        rcases mem_assignEntry hx with rfl | hx
        · exact lt_of_le_of_ne (not_lt.mp hlt) (Ne.symm heq)
        · exact he x hx

/-- A key greater than all the others goes to the end. -/
theorem assignEntry_of_lt (k : κ) (v : ν) {es : List (κ × ν)} (h : ∀ e ∈ es, e.1 < k) :
    assignEntry k v es = es ++ [(k, v)] := by
  induction es with
  | nil => rfl
  | cons e es ih =>
    have he := h e List.mem_cons_self
    unfold assignEntry
    rw [if_neg he.not_gt, if_neg he.ne', ih fun x hx => h x (List.mem_cons_of_mem _ hx)]
    rfl

/-- `m[ k ] = v`. -/
def assign (m : SortedMap κ ν) (k : κ) (v : ν) : SortedMap κ ν :=
  ⟨assignEntry k v m.entries, assignEntry_sorted k v m.sorted⟩

/-- `m.emplace( k, v )`, which keeps the entry there is. -/
def emplace (m : SortedMap κ ν) (k : κ) (v : ν) : SortedMap κ ν :=
  if (m.lookup k).isSome then m else m.assign k v

/-- The assignment adds the new entry and takes away the one it displaces. -/
theorem assign_perm (m : SortedMap κ ν) (k : κ) (v : ν) :
    ((m.lookup k).toList.map (Prod.mk k) ++ (m.assign k v).entries).Perm ((k, v) :: m.entries) := by
  have main : ∀ es : List (κ × ν), es.Pairwise (fun a b => a.1 < b.1) →
      ((es.lookup k).toList.map (Prod.mk k) ++ assignEntry k v es).Perm ((k, v) :: es) := by
    intro es
    induction es with
    | nil => intro _; exact .refl _
    | cons e es ih =>
      intro h
      obtain ⟨he, hes⟩ := List.pairwise_cons.mp h
      unfold assignEntry
      by_cases hlt : k < e.1
      · have hnone : (e :: es).lookup k = none := by
          rw [List.lookup_eq_none_iff]
          intro x hx
          rcases List.mem_cons.mp hx with rfl | hx
          · simpa using hlt.ne
          · simpa using (hlt.trans (he x hx)).ne
        rw [hnone, if_pos hlt]
        exact .refl _
      · rw [if_neg hlt]
        by_cases heq : k = e.1
        · have hsome : (e :: es).lookup k = some e.2 := by
            rw [List.lookup_cons, heq, beq_self_eq_true]
          rw [hsome, if_pos heq, heq]
          exact List.Perm.swap _ _ _
        · have hskip : (e :: es).lookup k = es.lookup k := by
            obtain ⟨ek, ev⟩ := e
            rw [List.lookup_cons, beq_false_of_ne heq]
          rw [hskip, if_neg heq]
          exact List.perm_middle.trans (((ih hes).cons e).trans (.swap _ _ _))
  exact main m.entries m.sorted

theorem values_assign_perm (m : SortedMap κ ν) (k : κ) (v : ν) :
    ((m.lookup k).toList ++ (m.assign k v).values).Perm (v :: m.values) := by
  have h := (assign_perm m k v).map Prod.snd
  simpa [values, Function.comp_def] using h

theorem mem_assignEntry_self (k : κ) (v : ν) (es : List (κ × ν)) : (k, v) ∈ assignEntry k v es := by
  induction es with
  | nil => exact List.mem_singleton_self _
  | cons e es ih =>
    unfold assignEntry
    split
    · exact List.mem_cons_self
    · split
      · exact List.mem_cons_self
      · exact List.mem_cons_of_mem _ ih

theorem mem_keys_assign (m : SortedMap κ ν) (k : κ) (v : ν) (x : κ) :
    x ∈ (m.assign k v).keys ↔ x = k ∨ x ∈ m.keys := by
  have h := ((assign_perm m k v).map Prod.fst).mem_iff (a := x)
  rw [List.map_append, List.mem_append, List.map_cons, List.mem_cons] at h
  have hk : k ∈ (m.assign k v).keys := List.mem_map_of_mem (mem_assignEntry_self k v m.entries)
  constructor
  · exact fun hx => h.mp (.inr hx)
  · intro hx
    rcases h.mpr hx with hx | hx
    · obtain ⟨e, he, rfl⟩ := List.mem_map.mp hx
      obtain ⟨w, -, rfl⟩ := List.mem_map.mp he
      exact hk
    · exact hx

variable {m : SortedMap κ ν}

/-- Maps with the same entries are the same. -/
theorem ext_of_perm {m' : SortedMap κ ν} (h : m.entries.Perm m'.entries) : m = m' := by
  have heq : m.entries = m'.entries := by
    refine h.eq_of_pairwise (fun a b _ _ hab hba => absurd (hab.trans hba) (lt_irrefl _))
      m.sorted m'.sorted
  cases m
  cases m'
  cases heq
  rfl

/-! ## Values under a key of their own -/

section

variable (key : ν → κ)

/-- Every value is filed under its own key. -/
def Keyed (m : SortedMap κ ν) : Prop := ∀ e ∈ m.entries, e.1 = key e.2

/-- The values, assigned one after the other. -/
def assignAll : SortedMap κ ν → List ν → SortedMap κ ν
  | m, [] => m
  | m, v :: vs => assignAll (m.assign (key v) v) vs

/-- The values which another one takes the place of. -/
def displaced : SortedMap κ ν → List ν → List ν
  | _, [] => []
  | m, v :: vs => (m.lookup (key v)).toList ++ displaced (m.assign (key v) v) vs

theorem assignAll_append (vs ws : List ν) : ∀ m : SortedMap κ ν,
    assignAll key m (vs ++ ws) = assignAll key (assignAll key m vs) ws := by
  induction vs with
  | nil => exact fun _ => rfl
  | cons v vs ih => exact fun m => ih (m.assign (key v) v)

theorem Keyed.assign (h : Keyed key m) (v : ν) : Keyed key (m.assign (key v) v) := by
  intro e he
  rcases mem_assignEntry he with rfl | he
  · rfl
  · exact h e he

theorem Keyed.assignAll (vs : List ν) : ∀ {m : SortedMap κ ν}, Keyed key m →
    Keyed key (assignAll key m vs) := by
  induction vs with
  | nil => exact fun h => h
  | cons v vs ih => exact fun h => ih (h.assign key v)

theorem keyed_empty : Keyed key (empty : SortedMap κ ν) := fun _ h => nomatch h

theorem mem_keys_assignAll (vs : List ν) (x : κ) : ∀ m : SortedMap κ ν,
    x ∈ (assignAll key m vs).keys ↔ x ∈ m.keys ∨ ∃ v ∈ vs, key v = x := by
  induction vs with
  | nil => intro m; simp [assignAll]
  | cons v vs ih =>
    intro m
    unfold assignAll
    rw [ih, mem_keys_assign]
    simp only [List.mem_cons, exists_eq_or_imp]
    constructor
    · rintro ((rfl | h) | h)
      · exact .inr (.inl rfl)
      · exact .inl h
      · exact .inr (.inr h)
    · rintro (h | rfl | h)
      · exact .inl (.inr h)
      · exact .inl (.inl rfl)
      · exact .inr h

/-- What was assigned is displaced or still there. -/
theorem values_assignAll_perm (vs : List ν) : ∀ m : SortedMap κ ν,
    (displaced key m vs ++ (assignAll key m vs).values).Perm (vs ++ m.values) := by
  induction vs with
  | nil => intro m; exact .refl _
  | cons v vs ih =>
    intro m
    have hone := values_assign_perm m (key v) v
    have hrest := ih (m.assign (key v) v)
    unfold displaced assignAll
    calc ((m.lookup (key v)).toList ++ displaced key (m.assign (key v) v) vs)
          ++ (assignAll key (m.assign (key v) v) vs).values
        = (m.lookup (key v)).toList ++ (displaced key (m.assign (key v) v) vs
          ++ (assignAll key (m.assign (key v) v) vs).values) := List.append_assoc _ _ _
      _ ~ (m.lookup (key v)).toList ++ (vs ++ (m.assign (key v) v).values) := hrest.append_left _
      _ ~ vs ++ ((m.lookup (key v)).toList ++ (m.assign (key v) v).values) := by
          rw [← List.append_assoc, ← List.append_assoc]
          exact List.perm_append_comm.append_right _
      _ ~ vs ++ (v :: m.values) := hone.append_left _
      _ ~ v :: vs ++ m.values := List.perm_middle

theorem lookup_eq_some {k : κ} {v : ν} : m.lookup k = some v ↔ (k, v) ∈ m.entries := by
  unfold lookup
  rw [List.lookup_eq_some_iff]
  constructor
  · intro h
    obtain ⟨a, b, hsplit, -⟩ := h
    rw [hsplit]
    exact List.mem_append_right _ List.mem_cons_self
  · intro h
    obtain ⟨a, b, hsplit⟩ := List.append_of_mem h
    refine ⟨a, b, hsplit, fun x hx => ?_⟩
    have hs := m.sorted
    rw [hsplit, List.pairwise_append] at hs
    simpa using (hs.2.2 x hx (k, v) List.mem_cons_self).ne'

/-- A value of the map, found by its key. -/
theorem Keyed.lookup_eq (h : Keyed key m) {k : κ} {v : ν} :
    m.lookup k = some v ↔ v ∈ m.values ∧ key v = k := by
  rw [lookup_eq_some]
  constructor
  · exact fun he => ⟨List.mem_map_of_mem he, (h _ he).symm⟩
  · intro hv
    obtain ⟨hmem, rfl⟩ := hv
    obtain ⟨e, he, rfl⟩ := List.mem_map.mp hmem
    rwa [← h e he]

/-- The values after an assignment. -/
theorem Keyed.mem_values_assign (h : Keyed key m) (v u : ν) :
    u ∈ (m.assign (key v) v).values ↔ u = v ∨ u ∈ m.values ∧ key u ≠ key v := by
  have h' := h.assign key v
  have hv : (m.assign (key v) v).lookup (key v) = some v :=
    lookup_eq_some.mpr (mem_assignEntry_self _ _ _)
  have hiff := (values_assign_perm m (key v) v).mem_iff (a := u)
  rw [List.mem_append, List.mem_cons, Option.mem_toList, h.lookup_eq] at hiff
  constructor
  · intro hu
    by_cases hk : key u = key v
    · have hu' := (h'.lookup_eq key).mpr ⟨hu, hk⟩
      rw [hv] at hu'
      exact .inl (Option.some.inj hu').symm
    · exact (hiff.mp (.inr hu)).imp_right fun hm => ⟨hm, hk⟩
  · intro hu
    rcases hu with rfl | ⟨hm, hk⟩
    · exact ((h'.lookup_eq key).mp hv).1
    · exact (hiff.mpr (.inr hm)).resolve_left fun h => hk h.2

/-- A property of the displaced values is one of the values that have
another one of their key after them. -/
theorem forall_displaced {P : ν → Prop} (vs : List ν) : ∀ {m : SortedMap κ ν}, Keyed key m →
    ((∀ v ∈ displaced key m vs, P v) ↔
      (∀ v ∈ m.values, (∃ w ∈ vs, key w = key v) → P v) ∧
        vs.Pairwise fun a b => key b = key a → P a) := by
  induction vs with
  | nil => intro m _; simp [displaced]
  | cons v vs ih =>
    intro m hm
    unfold displaced
    rw [List.forall_mem_append, ih (hm.assign key v), List.pairwise_cons]
    simp only [Option.mem_toList, hm.lookup_eq, hm.mem_values_assign, List.mem_cons,
      exists_eq_or_imp]
    constructor
    · intro h
      obtain ⟨hold, hrest, hpair⟩ := h
      refine ⟨fun u hu hw => ?_, fun w hw hk => hrest v (.inl rfl) ⟨w, hw, hk⟩, hpair⟩
      by_cases hk : key u = key v
      · exact hold u ⟨hu, hk⟩
      · exact hrest u (.inr ⟨hu, hk⟩) (hw.resolve_left fun e => hk e.symm)
    · intro h
      obtain ⟨hold, hfirst, hpair⟩ := h
      refine ⟨fun u hu => hold u hu.1 (.inl hu.2.symm), fun u hu hw => ?_, hpair⟩
      rcases hu with rfl | ⟨hu, -⟩
      · obtain ⟨w, hw, hk⟩ := hw
        exact hfirst w hw hk
      · exact hold u hu (.inr hw)

/-- The values come in the order of their keys. -/
theorem Keyed.values_sorted (h : Keyed key m) : m.values.Pairwise fun a b => key a < key b :=
  List.pairwise_map.mpr (m.sorted.imp_of_mem fun ha hb hlt => h _ ha ▸ h _ hb ▸ hlt)

/-- Values of different keys are all kept, whatever the order in which
they were assigned. -/
theorem assignAll_perm {vs ws : List ν} (h : vs ~ ws) (hnodup : (vs.map key).Nodup) :
    assignAll key empty vs = assignAll key empty ws ∧
      (assignAll key (empty : SortedMap κ ν) vs).values ~ vs := by
  have hkept : ∀ us : List ν, (us.map key).Nodup →
      (assignAll key (empty : SortedMap κ ν) us).values ~ us := by
    intro us hus
    have hnone : displaced key (empty : SortedMap κ ν) us = [] := by
      refine List.eq_nil_iff_forall_not_mem.mpr ?_
      refine (forall_displaced key (P := fun _ => False) us (keyed_empty key)).mpr
        ⟨fun _ hv => (nomatch hv), ?_⟩
      exact (List.pairwise_map.mp hus).imp fun hne heq => hne heq.symm
    have hperm := values_assignAll_perm key us (empty : SortedMap κ ν)
    rw [hnone, List.nil_append] at hperm
    exact hperm.trans (.of_eq (List.append_nil us))
  have hentries : ∀ us : List ν, (assignAll key (empty : SortedMap κ ν) us).entries
      = (assignAll key (empty : SortedMap κ ν) us).values.map fun v => (key v, v) := by
    intro us
    have hk := Keyed.assignAll key us (keyed_empty key)
    rw [values, List.map_map]
    refine (List.map_id _).symm.trans (List.map_congr_left fun e he => ?_)
    exact Prod.ext (hk e he) rfl
  refine ⟨ext_of_perm ?_, hkept vs hnodup⟩
  rw [hentries, hentries]
  refine List.Perm.map _ ?_
  calc (assignAll key (empty : SortedMap κ ν) vs).values
      ~ vs := hkept vs hnodup
    _ ~ ws := h
    _ ~ (assignAll key (empty : SortedMap κ ν) ws).values :=
        (hkept ws ((h.map key).nodup_iff.mp hnodup)).symm

theorem size_eq_length (m : SortedMap κ ν) : m.size = m.values.length :=
  (List.length_map _).symm

/-- Values assigned in the order of their keys come in that order. -/
theorem values_assignAll_sorted {vs : List ν} (h : vs.Pairwise fun a b => key a < key b) :
    (assignAll key (empty : SortedMap κ ν) vs).values = vs := by
  have hnodup : (vs.map key).Nodup := List.pairwise_map.mpr (h.imp ne_of_lt)
  have hsorted := (Keyed.assignAll key vs (keyed_empty key)).values_sorted key
  exact (assignAll_perm key (.refl vs) hnodup).2.eq_of_pairwise
    (fun a b _ _ hab hba => absurd (hab.trans hba) (lt_irrefl _)) hsorted h

end

/-! ## Entries which come in order -/

theorem entries_assign_of_lt {k : κ} (v : ν) (h : ∀ e ∈ m.entries, e.1 < k) :
    (m.assign k v).entries = m.entries ++ [(k, v)] :=
  assignEntry_of_lt k v h

theorem emplace_of_lt {k : κ} (v : ν) (h : ∀ e ∈ m.entries, e.1 < k) :
    m.emplace k v = m.assign k v := by
  refine if_neg fun hsome => ?_
  obtain ⟨w, hw⟩ := Option.isSome_iff_exists.mp hsome
  exact lt_irrefl k (h _ (lookup_eq_some.mp hw))

theorem foldl_assign_entries {es : List (κ × ν)} : ∀ {m : SortedMap κ ν},
    (m.entries ++ es).Pairwise (fun a b => a.1 < b.1) →
    (es.foldl (fun m e => m.assign e.1 e.2) m).entries = m.entries ++ es ∧
      es.foldl (fun m e => m.emplace e.1 e.2) m = es.foldl (fun m e => m.assign e.1 e.2) m := by
  induction es with
  | nil => exact fun _ => ⟨(List.append_nil _).symm, rfl⟩
  | cons e es ih =>
    intro m h
    have hlt : ∀ x ∈ m.entries, x.1 < e.1 :=
      fun x hx => (List.pairwise_append.mp h).2.2 x hx e List.mem_cons_self
    rw [List.foldl_cons, List.foldl_cons, emplace_of_lt e.2 hlt]
    have hentries := entries_assign_of_lt e.2 hlt
    have hrest := @ih (m.assign e.1 e.2) (by rw [hentries, List.append_assoc]; exact h)
    rwa [hentries, List.append_assoc] at hrest

theorem foldl_assign_self (m : SortedMap κ ν) :
    m.entries.foldl (fun m e => m.assign e.1 e.2) empty = m :=
  ext_of_perm (.of_eq (foldl_assign_entries (m := empty) m.sorted).1)

/-! ## What is found under a key -/

theorem lookup_assignEntry (k : κ) (v : ν) (n : κ) (es : List (κ × ν)) :
    (assignEntry k v es).lookup n = if n = k then some v else es.lookup n := by
  induction es with
  | nil => exact AssocList.lookup_cons_eq n
  | cons e es ih =>
    unfold assignEntry
    split
    · exact AssocList.lookup_cons_eq n
    · split
      · next heq =>
          rw [AssocList.lookup_cons_eq]
          split
          · rfl
          · next hn => rw [AssocList.lookup_cons_eq, if_neg (heq ▸ hn)]
      · next hne =>
          rw [AssocList.lookup_cons_eq, AssocList.lookup_cons_eq, ih]
          split
          · next hn => rw [if_neg fun h => hne (h.symm.trans hn)]
          · rfl

theorem lookup_emplace (m : SortedMap κ ν) (k : κ) (v : ν) (n : κ) :
    (m.emplace k v).lookup n = (m.lookup n).or (if n = k then some v else none) := by
  rw [emplace]
  split
  · next hsome =>
      split
      · next hn => rw [hn, Option.or_of_isSome hsome]
      · rw [Option.or_none]
  · next hnone =>
      have hk : m.lookup k = none := Option.not_isSome_iff_eq_none.mp hnone
      refine (lookup_assignEntry k v n m.entries).trans ?_
      split
      · next hn => rw [hn, hk, Option.none_or]
      · exact (Option.or_none).symm

theorem lookup_foldl_emplace (n : κ) {es : List (κ × ν)} : ∀ {m : SortedMap κ ν},
    (es.foldl (fun m e => m.emplace e.1 e.2) m).lookup n = (m.lookup n).or (es.lookup n) := by
  induction es with
  | nil => exact fun {m} => (Option.or_none).symm
  | cons e es ih =>
    intro m
    rw [List.foldl_cons, ih, lookup_emplace, Option.or_assoc, AssocList.lookup_cons_eq]
    split
    · rw [Option.some_or]
    · rw [Option.none_or]

/-- Of the values of a key, the first one stays. -/
theorem lookup_foldl_emplace_key (key : ν → κ) (n : κ) {vs : List ν} : ∀ {m : SortedMap κ ν},
    (vs.foldl (fun m v => m.emplace (key v) v) m).lookup n =
      (m.lookup n).or (vs.find? fun v => key v = n) := by
  induction vs with
  | nil => exact fun {m} => (Option.or_none).symm
  | cons v vs ih =>
    intro m
    rw [List.foldl_cons, ih, lookup_emplace, Option.or_assoc, List.find?_cons]
    by_cases h : n = key v
    · simp [h]
    · simp [h, Ne.symm h]

theorem Keyed.emplace {key : ν → κ} (h : Keyed key m) (v : ν) :
    Keyed key (m.emplace (key v) v) := by
  rw [SortedMap.emplace]
  split
  · exact h
  · exact h.assign key v

theorem Keyed.foldl_emplace {key : ν → κ} {vs : List ν} : ∀ {m : SortedMap κ ν}, Keyed key m →
    Keyed key (vs.foldl (fun m v => m.emplace (key v) v) m) := by
  induction vs with
  | nil => exact fun h => h
  | cons v vs ih => exact fun h => ih (h.emplace v)

end SortedMap

end Baselib.Lib
