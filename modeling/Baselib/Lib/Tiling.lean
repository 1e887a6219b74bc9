/-
Baselib.Lib.Tiling — pieces of a file that tile it, and the file that
writing them builds.

A piece covers `len` positions from `pos` on. A list of pieces tiles
`[a, b)` when the first begins at `a`, each next one where the one before
it ends, and the last ends at `b`; then every position is covered once.
Writing puts the octets of a piece at its position; pieces of one
content which cover it build it up again in any order.
-/
import Mathlib.Data.List.Perm.Basic
import Mathlib.Data.List.Count
import Mathlib.Data.List.TakeDrop

namespace Baselib.Lib

open List

section

variable {α : Type} (pos len : α → Nat)

/-! ## Tilings -/

/-- The pieces tile `[a, b)`, in this order. -/
def Tiles : Nat → List α → Nat → Prop
  | a, [], b => a = b
  | a, x :: rest, b => pos x = a ∧ Tiles (pos x + len x) rest b

/-- The piece covers the position. -/
def covers (i : Nat) (x : α) : Bool := pos x ≤ i && i < pos x + len x

variable {pos len}

theorem Tiles.le {l : List α} : ∀ {a b : Nat}, Tiles pos len a l b → a ≤ b := by
  induction l with
  | nil => exact fun h => Nat.le_of_eq h
  | cons x l ih =>
    intro a b h
    have hrest := ih h.2
    have hx := h.1
    omega

theorem Tiles.bounds {l : List α} : ∀ {a b : Nat}, Tiles pos len a l b → ∀ x ∈ l,
    a ≤ pos x ∧ pos x + len x ≤ b := by
  induction l with
  | nil => exact fun _ _ h => nomatch h
  | cons y l ih =>
    intro a b h x hx
    have hy := h.1
    rcases mem_cons.mp hx with rfl | hx
    · exact ⟨Nat.le_of_eq hy.symm, h.2.le⟩
    · have hrest := ih h.2 x hx
      omega

/-- Every position of a tiled interval is covered exactly once, and no
other position is. -/
theorem Tiles.countP {l : List α} (i : Nat) : ∀ {a b : Nat}, Tiles pos len a l b →
    l.countP (covers pos len i) = if a ≤ i ∧ i < b then 1 else 0 := by
  induction l with
  | nil =>
    intro a b h
    have hab : a = b := h
    rw [countP_nil, if_neg (by omega)]
  | cons x l ih =>
    intro a b h
    have hx := h.1
    have hle := h.2.le
    rw [countP_cons, ih h.2]
    by_cases hcov : covers pos len i x = true
    · have hi : pos x ≤ i ∧ i < pos x + len x := by simpa [covers] using hcov
      rw [if_pos hcov, if_neg (by omega), if_pos (by omega)]
    · have hi : ¬ (pos x ≤ i ∧ i < pos x + len x) := by simpa [covers] using hcov
      rw [if_neg hcov]
      by_cases hin : a ≤ i ∧ i < b
      · rw [if_pos hin, if_pos (by omega)]
      · rw [if_neg hin, if_neg (by omega)]

/-- An empty piece fits in front of a piece at its position. -/
theorem Tiles.insert_empty {l : List α} {z x : α} (hlen : len z = 0) (hpos : pos z = pos x) :
    ∀ {a b : Nat}, Tiles pos len a l b → x ∈ l →
      ∃ l', l'.Perm (z :: l) ∧ Tiles pos len a l' b := by
  induction l with
  | nil => exact fun _ h => nomatch h
  | cons y l ih =>
    intro a b h hx
    obtain rfl | hy := eq_or_ne y x
    · refine ⟨z :: y :: l, .refl _, hpos.trans h.1, ?_, h.2⟩
      rw [hlen, hpos, Nat.add_zero]
    · have hx' : x ∈ l := (mem_cons.mp hx).resolve_left fun e => hy e.symm
      obtain ⟨l', hperm, htiles⟩ := ih h.2 hx'
      exact ⟨y :: l', (hperm.cons y).trans (.swap z y l), h.1, htiles⟩

/-- Empty pieces at the positions of others leave a tiling a tiling. -/
theorem Tiles.insert_empties {a b : Nat} {l : List α} (h : Tiles pos len a l b) (zs : List α)
    (hzs : ∀ z ∈ zs, len z = 0 ∧ ∃ x ∈ l, pos z = pos x) :
    ∃ l', l'.Perm (zs ++ l) ∧ Tiles pos len a l' b := by
  induction zs with
  | nil => exact ⟨l, .refl _, h⟩
  | cons z zs ih =>
    obtain ⟨l', hperm, htiles⟩ := ih fun x hx => hzs x (mem_cons_of_mem _ hx)
    obtain ⟨hlen, x, hx, hpos⟩ := hzs z mem_cons_self
    have hx' : x ∈ l' := hperm.mem_iff.mpr (mem_append_right _ hx)
    obtain ⟨l'', hperm', htiles'⟩ := htiles.insert_empty hlen hpos hx'
    exact ⟨l'', hperm'.trans (hperm.cons z), htiles'⟩

theorem Tiles.append {l m : List α} {b c : Nat} (hm : Tiles pos len b m c) :
    ∀ {a : Nat}, Tiles pos len a l b → Tiles pos len a (l ++ m) c := by
  induction l with
  | nil => exact fun h => h ▸ hm
  | cons x l ih => exact fun h => ⟨h.1, ih h.2⟩

theorem tiles_append_iff {l m : List α} {c : Nat} : ∀ {a : Nat},
    Tiles pos len a (l ++ m) c ↔ ∃ b, Tiles pos len a l b ∧ Tiles pos len b m c := by
  induction l with
  | nil => intro a; simp [Tiles]
  | cons x l ih => intro a; simp [Tiles, ih, and_assoc]

/-- Every position of a tiled interval is covered. -/
theorem Tiles.exists_covers {l : List α} {a b i : Nat} (h : Tiles pos len a l b) (ha : a ≤ i)
    (hb : i < b) : ∃ x ∈ l, pos x ≤ i ∧ i < pos x + len x := by
  have hcount := h.countP i
  rw [if_pos ⟨ha, hb⟩] at hcount
  obtain ⟨x, hx, hcov⟩ := countP_pos_iff.mp (Nat.lt_of_lt_of_eq Nat.zero_lt_one hcount.symm)
  exact ⟨x, hx, by simpa [covers] using hcov⟩

/-- Pieces which are not empty come in strictly increasing positions. -/
theorem Tiles.pairwise_lt {l : List α} (hlen : ∀ x ∈ l, 0 < len x) : ∀ {a b : Nat},
    Tiles pos len a l b → l.Pairwise fun x y => pos x < pos y := by
  induction l with
  | nil => exact fun _ => List.Pairwise.nil
  | cons x l ih =>
    intro a b h
    have hx := hlen x mem_cons_self
    refine pairwise_cons.mpr ⟨fun y hy => ?_, ih (fun y hy => hlen y (mem_cons_of_mem _ hy)) h.2⟩
    have hy' := (h.2.bounds y hy).1
    omega

/-- The pieces of a tiling come in the order of their positions. -/
theorem Tiles.pairwise_le {l : List α} : ∀ {a b : Nat}, Tiles pos len a l b →
    l.Pairwise fun x y => pos x ≤ pos y := by
  induction l with
  | nil => exact fun _ => List.Pairwise.nil
  | cons x l ih =>
    intro a b h
    refine pairwise_cons.mpr ⟨fun y hy => ?_, ih h.2⟩
    have hy' := (h.2.bounds y hy).1
    omega

/-- Where positions increase strictly, an empty piece is the last one. -/
theorem Tiles.pos_of_empty {l : List α} : ∀ {a b : Nat}, Tiles pos len a l b →
    l.Pairwise (fun x y => pos x < pos y) → ∀ x ∈ l, len x = 0 → pos x = b := by
  induction l with
  | nil => exact fun _ _ _ h => nomatch h
  | cons y l ih =>
    intro a b h hsorted x hx hempty
    obtain ⟨hlt, hsorted'⟩ := pairwise_cons.mp hsorted
    rcases mem_cons.mp hx with rfl | hx
    · cases l with
      | nil => simpa [Tiles, hempty] using h.2
      | cons w l =>
        have hw := h.2.1
        have hlt' := hlt w mem_cons_self
        omega
    · exact ih h.2 hsorted' x hx hempty

end

/-! ## Writing -/

section

variable {β : Type} (pad : β)

/-- The content of a file after `data` was written at `pos`; what lies
between the end of the file and `pos` reads as `pad`. -/
def writeAt (file : List β) (pos : Nat) (data : List β) : List β :=
  if data = [] then file
  else file.take pos ++ List.replicate (pos - file.length) pad ++ data
    ++ file.drop (pos + data.length)

theorem length_writeAt_le {file : List β} {pos : Nat} {data : List β} {n : Nat}
    (hfile : file.length ≤ n) (hdata : pos + data.length ≤ n) :
    (writeAt pad file pos data).length ≤ n := by
  unfold writeAt
  split
  · exact hfile
  · simp only [length_append, length_take, length_replicate, length_drop]
    omega

theorem getElem?_writeAt_inside (file : List β) {pos i : Nat} {data : List β} (hpos : pos ≤ i)
    (hi : i < pos + data.length) : (writeAt pad file pos data)[i]? = data[i - pos]? := by
  have hne : data ≠ [] := fun h => by
    rw [h, length_nil] at hi
    omega
  unfold writeAt
  rw [if_neg hne, append_assoc _ data]
  have hlen : (file.take pos ++ List.replicate (pos - file.length) pad).length = pos := by
    simp only [length_append, length_take, length_replicate]
    omega
  rw [getElem?_append_right (by omega), hlen, getElem?_append_left (by omega)]

theorem getElem?_writeAt_outside {file : List β} {pos i : Nat} {data : List β}
    (hfile : i < file.length) (hi : ¬ (pos ≤ i ∧ i < pos + data.length)) :
    (writeAt pad file pos data)[i]? = file[i]? := by
  unfold writeAt
  split
  · rfl
  · by_cases hlt : i < pos
    · rw [append_assoc, append_assoc, getElem?_append_left (by simp; omega)]
      exact getElem?_take_of_lt hlt
    · have hlen : (file.take pos ++ List.replicate (pos - file.length) pad ++ data).length
          = pos + data.length := by
        simp only [length_append, length_take, length_replicate]
        omega
      rw [getElem?_append_right (by omega), hlen, getElem?_drop]
      congr 1
      omega

theorem length_writeAt {file data : List β} {pos : Nat} (hpos : pos ≤ file.length) :
    (writeAt pad file pos data).length = max file.length (pos + data.length) := by
  unfold writeAt
  split
  · rename_i hempty
    simp [hempty, hpos]
  · simp only [length_append, length_take, length_replicate, length_drop]
    omega

/-- Writing at the end appends. -/
theorem writeAt_length (file data : List β) : writeAt pad file file.length data = file ++ data := by
  unfold writeAt
  split
  · rename_i hempty
    simp [hempty]
  · simp

/-- Writing over a part replaces it. -/
theorem writeAt_append {part data : List β} (before after : List β)
    (hlength : data.length = part.length) :
    writeAt pad (before ++ part ++ after) before.length data = before ++ data ++ after := by
  unfold writeAt
  split
  · rename_i hempty
    have hpart : part = [] := length_eq_zero_iff.mp (by simp [← hlength, hempty])
    simp [hempty, hpart]
  · simp [hlength]

/-- A write over the front of a part. -/
theorem writeAt_take {part data : List β} (before after : List β)
    (hlength : data.length = part.length) (n : Nat) :
    writeAt pad (before ++ (part ++ after)) before.length (data.take n) =
      before ++ ((data.take n ++ part.drop n) ++ after) := by
  have hfile : before ++ (part ++ after) = before ++ part.take n ++ (part.drop n ++ after) := by
    rw [append_assoc, ← append_assoc (part.take n), take_append_drop]
  rw [hfile, writeAt_append pad before _ (by simp [hlength])]
  simp only [append_assoc]

/-- A part which a write does not reach reads the same. -/
theorem take_drop_writeAt {file data : List β} {pos i n : Nat} (hfile : i + n ≤ file.length)
    (hdata : i + n ≤ pos ∨ pos + data.length ≤ i) :
    ((writeAt pad file pos data).drop i).take n = (file.drop i).take n := by
  refine ext_getElem? fun j => ?_
  rw [getElem?_take, getElem?_take]
  split
  · rw [getElem?_drop, getElem?_drop]
    exact getElem?_writeAt_outside pad (by omega) (by omega)
  · rfl

variable {α : Type} (pos : α → Nat) (data : α → List β)

/-- The pieces, written one after the other. -/
def writeAll (file : List β) : List α → List β
  | [] => file
  | x :: rest => writeAll (writeAt pad file (pos x) (data x)) rest

theorem writeAll_append (xs ys : List α) : ∀ file : List β,
    writeAll pad pos data file (xs ++ ys) = writeAll pad pos data (writeAll pad pos data file xs) ys := by
  induction xs with
  | nil => exact fun _ => rfl
  | cons x xs ih => exact fun file => ih (writeAt pad file (pos x) (data x))

/-- Pieces of one content which cover it build it, in any order. -/
theorem writeAll_eq (content : List β) (pieces : List α)
    (hpiece : ∀ x ∈ pieces, data x = (content.drop (pos x)).take (data x).length)
    (hcover : ∀ i < content.length, ∃ x ∈ pieces, pos x ≤ i ∧ i < pos x + (data x).length) :
    writeAll pad pos data [] pieces = content := by
  -- what is covered so far is right, and the file is not longer than the content
  have main : ∀ (rest : List α) (file : List β),
      (∀ x ∈ rest, data x = (content.drop (pos x)).take (data x).length) →
      file.length ≤ content.length →
      (∀ i < content.length, file[i]? = content[i]? ∨
        ∃ x ∈ rest, pos x ≤ i ∧ i < pos x + (data x).length) →
      writeAll pad pos data file rest = content := by
    intro rest
    induction rest with
    | nil =>
      intro file _ hlen hright
      refine ext_getElem? fun i => ?_
      show file[i]? = content[i]?
      by_cases hi : i < content.length
      · exact (hright i hi).resolve_right fun ⟨_, hx, _⟩ => nomatch hx
      · rw [getElem?_eq_none (by omega), getElem?_eq_none (by omega)]
    | cons x rest ih =>
      intro file hrest hlen hright
      have hx := hrest x mem_cons_self
      have hbound : data x ≠ [] → pos x + (data x).length ≤ content.length := by
        intro hne
        have hl := congrArg List.length hx
        rw [length_take, length_drop] at hl
        have := length_pos_of_ne_nil hne
        omega
      refine ih _ (fun y hy => hrest y (mem_cons_of_mem _ hy)) ?_ fun i hi => ?_
      · by_cases hne : data x = []
        · rwa [writeAt, if_pos hne]
        · exact length_writeAt_le pad hlen (hbound hne)
      · by_cases hin : pos x ≤ i ∧ i < pos x + (data x).length
        · left
          rw [getElem?_writeAt_inside pad file hin.1 hin.2, hx, getElem?_take_of_lt (by omega),
            getElem?_drop]
          congr 1
          omega
        · rcases hright i hi with h | ⟨y, hy, hyi⟩
          · left
            have hfile : i < file.length := by
              by_contra hge
              rw [getElem?_eq_none (by omega), getElem?_eq_getElem hi] at h
              cases h
            rw [getElem?_writeAt_outside pad hfile hin, h]
          · rcases mem_cons.mp hy with rfl | hy
            · exact absurd hyi hin
            · exact .inr ⟨y, hy, hyi⟩
  exact main pieces [] hpiece (Nat.zero_le _) fun i hi => .inr (hcover i hi)

end

end Baselib.Lib
