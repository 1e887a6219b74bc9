/-
Baselib.Core.UriDotSegments — `removeDotSegments` is the segment stack.

The loop works on text: prefixes of the input, and the last '/' of the
output. Here the input is cut into pieces, each a '/' and a segment, and
the output is the concatenation of a stack of pieces; one pass is then
one operation of the stack (`removeDotSegmentsLoop_pieces`). Only the
first piece of the output can be without its '/'.
-/
import Baselib.Lib.DotSegments
import Baselib.Core.Uri

namespace Baselib.Core.Uri

open Lib List

variable {stack : List Octets}

/-! ## Pieces -/

/-- A segment with the separator in front of it. -/
def slashed (segment : Octets) : Octets := '/'.toUInt8 :: segment

/-- A path of a first segment and others behind separators. -/
def joinPath (first : Octets) (segments : List Octets) : Octets :=
  first ++ (segments.map slashed).flatten

def dot : Octets := octets "."

def dotDot : Octets := octets ".."

def pieceKind (piece : Octets) : SegmentKind :=
  if piece = slashed dot then .current
  else if piece = slashed dotDot then .parent
  else if piece = slashed [] then .empty
  else .name

/-- The leading dot segments are dropped before there is any output. -/
def pathPieces : List Octets → List Octets
  | [] => []
  | first :: segments =>
    if first = dot ∨ first = dotDot then pathPieces segments
    else if first = [] then segments.map slashed
    else first :: segments.map slashed

/-- A stack of pieces, the top first. -/
inductive IsOutput : List Octets → Prop
  | nil : IsOutput []
  | first {x : Octets} (hx : '/'.toUInt8 ∉ x) : IsOutput [x]
  | push {x : Octets} {stack : List Octets} (hx : '/'.toUInt8 ∉ x) (h : IsOutput stack) :
      IsOutput (slashed x :: stack)

/-- The text of a stack. -/
def render (stack : List Octets) : Octets := stack.reverse.flatten

@[simp] theorem render_nil : render [] = [] := rfl

@[simp] theorem render_cons (p : Octets) (stack : List Octets) :
    render (p :: stack) = render stack ++ p := by
  simp [render]

theorem IsOutput.tail (h : IsOutput stack) : IsOutput stack.tail := by
  cases h with
  | nil => exact .nil
  | first hx => exact .nil
  | push hx h => exact h

theorem removeLastSegment_render (h : IsOutput stack) :
    removeLastSegment (render stack) = render stack.tail := by
  cases h with
  | nil => rfl
  | first hx =>
    rw [render_cons, render_nil, nil_append, removeLastSegment, rfind_eq_none.mpr hx]
    rfl
  | push hx h =>
    rw [render_cons, slashed, removeLastSegment, rfind_append_cons _ hx]
    simp

/-! ## One pass -/

section

variable {x rest : Octets}

/-- What follows a segment: nothing, or the next separator. -/
def Continues (rest : Octets) : Prop := rest = [] ∨ ∃ more, rest = '/'.toUInt8 :: more

theorem prefix_segment_iff {y : Octets} (hx : '/'.toUInt8 ∉ x) (hy : '/'.toUInt8 ∉ y)
    (hrest : Continues rest) :
    y ++ ['/'.toUInt8] <+: x ++ rest ↔ x = y ∧ rest ≠ [] := by
  constructor
  · rintro ⟨t, ht⟩
    rw [append_assoc, singleton_append] at ht
    rcases hrest with rfl | ⟨more, rfl⟩
    · rw [append_nil] at ht
      exact absurd (by rw [← ht]; simp) hx
    · exact ⟨((append_cons_inj hy hx).mp ht).1.symm, by simp⟩
  · rintro ⟨rfl, hne⟩
    rcases hrest with rfl | ⟨more, rfl⟩
    · exact absurd rfl hne
    · exact ⟨more, by simp⟩

theorem eq_segment_iff {y : Octets} (hy : '/'.toUInt8 ∉ y) (hrest : Continues rest) :
    x ++ rest = y ↔ x = y ∧ rest = [] := by
  constructor
  · rintro rfl
    rcases hrest with rfl | ⟨more, rfl⟩
    · simp
    · exact absurd (by simp) hy
  · rintro ⟨rfl, rfl⟩
    simp

theorem not_mem_dot : '/'.toUInt8 ∉ dot ∧ '/'.toUInt8 ∉ dotDot := by decide

/-- The passes over a segment behind its separator, by what it is. -/
theorem step_slashed (hx : '/'.toUInt8 ∉ x) (hrest : Continues rest) (output : Octets) :
    removeDotSegmentsStep (slashed x ++ rest) output =
      if x = dot then (if rest = [] then slashed [] else rest, output)
      else if x = dotDot then (if rest = [] then slashed [] else rest, removeLastSegment output)
      else (rest, output ++ slashed x) := by
  have hdotted : ∀ y z : Octets, ¬ '.'.toUInt8 :: y <+: slashed z ++ rest := fun y z h =>
    absurd (cons_prefix_cons.mp h).1 (by decide)
  have hne : ∀ y : Octets, slashed x ++ rest ≠ '.'.toUInt8 :: y := fun y h =>
    absurd (List.cons.inj h).1 (by decide)
  have hprefix : ∀ {y : Octets}, '/'.toUInt8 ∉ y →
      (slashed (y ++ ['/'.toUInt8]) <+: slashed x ++ rest ↔ x = y ∧ rest ≠ []) := by
    intro y hy
    rw [slashed, slashed, cons_append, cons_prefix_cons, prefix_segment_iff hx hy hrest]
    simp
  have heq : ∀ {y : Octets}, '/'.toUInt8 ∉ y →
      (slashed x ++ rest = slashed y ↔ x = y ∧ rest = []) := by
    intro y hy
    rw [slashed, slashed, cons_append, cons_inj_right, eq_segment_iff hy hrest]
  have h1 : ¬ octets "../" <+: slashed x ++ rest := hdotted _ _
  have h2 : ¬ octets "./" <+: slashed x ++ rest := hdotted _ _
  have h3 : octets "/./" <+: slashed x ++ rest ↔ x = dot ∧ rest ≠ [] := hprefix not_mem_dot.1
  have h4 : slashed x ++ rest = octets "/." ↔ x = dot ∧ rest = [] := heq not_mem_dot.1
  have h5 : octets "/../" <+: slashed x ++ rest ↔ x = dotDot ∧ rest ≠ [] := hprefix not_mem_dot.2
  have h6 : slashed x ++ rest = octets "/.." ↔ x = dotDot ∧ rest = [] := heq not_mem_dot.2
  have h7 : ¬ (slashed x ++ rest = octets "." ∨ slashed x ++ rest = octets "..") :=
    not_or.mpr ⟨hne _, hne _⟩
  have hhead : (slashed x ++ rest).head? = some '/'.toUInt8 := rfl
  have hfind : find (slashed x ++ rest) '/'.toUInt8 1 =
      (find (x ++ rest) '/'.toUInt8 0).map (1 + ·) := find_append_length ['/'.toUInt8] (x ++ rest) _
  simp only [removeDotSegmentsStep, h1, h2, h3, h4, h5, h6, h7, if_false, hhead, beq_self_eq_true,
    if_true, hfind]
  obtain rfl | hdot := eq_or_ne x dot
  · by_cases hr : rest = []
    · simp only [hr, ne_eq, not_true_eq_false, and_false, if_false, and_self, if_true]
      rfl
    · simp only [hr, ne_eq, not_false_eq_true, and_self, if_true, if_false]
      rfl
  · obtain rfl | hdd := eq_or_ne x dotDot
    · by_cases hr : rest = []
      · simp only [hdot, hr, false_and, ne_eq, not_true_eq_false, and_false, if_false, and_self,
          if_true]
        rfl
      · simp only [hdot, hr, false_and, ne_eq, not_false_eq_true, and_self, if_true, if_false]
        rfl
    · simp only [hdot, hdd, false_and, if_false]
      rcases hrest with rfl | ⟨more, rfl⟩
      · rw [append_nil, find_eq_none.mpr hx]
        simp
      · rw [find_append_cons more hx]
        simp [slashed, Nat.add_comm]

/-- The pass over a segment with no separator before it, which can only be
the first. -/
theorem step_first (hx : '/'.toUInt8 ∉ x) (hne : x ≠ []) (hrest : Continues rest) :
    removeDotSegmentsStep (x ++ rest) [] =
      if x = dot ∨ x = dotDot then (rest.tail, []) else (rest, x) := by
  obtain ⟨c, y, rfl⟩ := exists_cons_of_ne_nil hne
  have hc : c ≠ '/'.toUInt8 := by rintro rfl; simp at hx
  have hslashed : ∀ z : Octets, ¬ slashed z <+: c :: y ++ rest := fun z h =>
    hc (cons_prefix_cons.mp h).1.symm
  have hsep : ∀ z : Octets, c :: y ++ rest ≠ slashed z := fun z h => hc (List.cons.inj h).1
  have h1 : octets "../" <+: c :: y ++ rest ↔ c :: y = dotDot ∧ rest ≠ [] :=
    prefix_segment_iff hx not_mem_dot.2 hrest
  have h2 : octets "./" <+: c :: y ++ rest ↔ c :: y = dot ∧ rest ≠ [] :=
    prefix_segment_iff hx not_mem_dot.1 hrest
  have h3 : ¬ octets "/./" <+: c :: y ++ rest := hslashed _
  have h4 : ¬ c :: y ++ rest = octets "/." := hsep _
  have h5 : ¬ octets "/../" <+: c :: y ++ rest := hslashed _
  have h6 : ¬ c :: y ++ rest = octets "/.." := hsep _
  have h7 : c :: y ++ rest = octets "." ↔ c :: y = dot ∧ rest = [] :=
    eq_segment_iff not_mem_dot.1 hrest
  have h8 : c :: y ++ rest = octets ".." ↔ c :: y = dotDot ∧ rest = [] :=
    eq_segment_iff not_mem_dot.2 hrest
  have hhead : ((c :: y ++ rest).head? == some '/'.toUInt8) = false := by simpa using hc
  simp only [removeDotSegmentsStep, h1, h2, h3, h4, h5, h6, h7, h8, if_false, hhead,
    Bool.false_eq_true]
  by_cases hdot : c :: y = dot
  · rw [hdot]
    rcases hrest with rfl | ⟨more, rfl⟩
    · simp
    · simp [dot, dotDot, octets]
  · by_cases hdd : c :: y = dotDot
    · rw [hdd]
      rcases hrest with rfl | ⟨more, rfl⟩
      · simp
      · simp [dotDot, octets]
    · simp only [hdot, hdd, false_and, if_false, or_self]
      rcases hrest with rfl | ⟨more, rfl⟩
      · rw [append_nil, find_eq_none.mpr hx]
        simp
      · rw [find_append_cons more hx]
        simp

end

/-! ## The loop -/

theorem continues_flatten (segments : List Octets) : Continues (segments.map slashed).flatten := by
  cases segments with
  | nil => exact .inl rfl
  | cons x segments => exact .inr ⟨_, rfl⟩

theorem removeDotSegmentsLoop_nil (fuel : Nat) (output : Octets) :
    removeDotSegmentsLoop fuel [] output = output := by
  cases fuel <;> rfl

theorem removeDotSegmentsLoop_succ {input : Octets} (hne : input ≠ []) (fuel : Nat)
    (output : Octets) :
    removeDotSegmentsLoop (fuel + 1) input output
      = removeDotSegmentsLoop fuel (removeDotSegmentsStep input output).1
          (removeDotSegmentsStep input output).2 := by
  rw [removeDotSegmentsLoop, if_neg (by simpa using hne)]

/-- A lone separator is an empty segment. -/
theorem removeDotSegmentsLoop_slash {fuel : Nat} (hfuel : 1 ≤ fuel) (output : Octets) :
    removeDotSegmentsLoop fuel (slashed []) output = output ++ slashed [] := by
  obtain ⟨fuel, rfl⟩ := Nat.exists_eq_add_of_le' hfuel
  rw [removeDotSegmentsLoop_succ (by simp [slashed])]
  have hstep := step_slashed (x := []) (by simp) (.inl rfl) output
  rw [append_nil, if_neg (by decide), if_neg (by decide)] at hstep
  rw [hstep, removeDotSegmentsLoop_nil]

theorem pieceKind_slashed {x : Octets} :
    pieceKind (slashed x) =
      if x = dot then .current else if x = dotDot then .parent else if x = [] then .empty
      else .name := by
  simp only [pieceKind, slashed, cons_inj_right]

theorem pushSegment_slashed {x : Octets} (stack : List Octets) :
    pushSegment pieceKind stack (slashed x) =
      if x = dot then stack else if x = dotDot then stack.tail else slashed x :: stack := by
  rw [pushSegment, pieceKind_slashed]
  split_ifs <;> rfl

theorem pushLastSegment_slashed {x : Octets} (stack : List Octets) :
    pushLastSegment pieceKind (slashed []) stack (slashed x) =
      if x = dot then slashed [] :: stack
      else if x = dotDot then slashed [] :: stack.tail else slashed x :: stack := by
  rw [pushLastSegment, pieceKind_slashed]
  split_ifs <;> rfl

theorem IsOutput.pushSegment {x : Octets} (hx : '/'.toUInt8 ∉ x)
    (h : IsOutput stack) : IsOutput (pushSegment pieceKind stack (slashed x)) := by
  rw [pushSegment_slashed]
  split_ifs
  · exact h
  · exact h.tail
  · exact .push hx h

/-- Each pass over a piece is one operation of the stack. -/
theorem removeDotSegmentsLoop_pieces : ∀ (segments stack : List Octets) (fuel : Nat),
    (∀ x ∈ segments, '/'.toUInt8 ∉ x) → IsOutput stack →
    (segments.map slashed).flatten.length ≤ fuel →
    removeDotSegmentsLoop fuel (segments.map slashed).flatten (render stack)
      = render (resolveSegments pieceKind (slashed []) stack (segments.map slashed))
  | [], stack, fuel, _, _, _ => removeDotSegmentsLoop_nil fuel _
  | [x], stack, fuel, hsegs, hstack, hfuel => by
      have hx := hsegs x (by simp)
      have hflat : ([x].map slashed).flatten = slashed x := by simp
      rw [hflat] at hfuel ⊢
      obtain ⟨fuel, rfl⟩ := Nat.exists_eq_add_of_le' (Nat.le_trans (Nat.succ_pos x.length) hfuel)
      have hstep := step_slashed hx (.inl rfl) (render stack)
      rw [append_nil] at hstep
      rw [removeDotSegmentsLoop_succ (by simp [slashed]), hstep]
      change _ = render (pushLastSegment pieceKind (slashed []) stack (slashed x))
      rw [pushLastSegment_slashed]
      obtain rfl | hdot := eq_or_ne x dot
      · have hone : 1 ≤ fuel := Nat.le_of_succ_le_succ hfuel
        simp only [if_true, removeDotSegmentsLoop_slash hone, render_cons]
      · obtain rfl | hdd := eq_or_ne x dotDot
        · have hone : 1 ≤ fuel := Nat.le_of_succ_le (Nat.le_of_succ_le_succ hfuel)
          simp only [hdot, if_false, if_true, removeDotSegmentsLoop_slash hone, render_cons,
            removeLastSegment_render hstack]
        · simp only [hdot, hdd, if_false, removeDotSegmentsLoop_nil, render_cons]
  | x :: y :: segments, stack, fuel, hsegs, hstack, hfuel => by
      have hx := hsegs x (by simp)
      have hne : ((y :: segments).map slashed).flatten ≠ [] := by simp [slashed]
      rw [map_cons, flatten_cons, length_append] at hfuel
      rw [map_cons, flatten_cons]
      obtain ⟨fuel, rfl⟩ : ∃ n, fuel = n + 1 :=
        ⟨fuel - 1, by simp only [slashed, length_cons] at hfuel; omega⟩
      have ih := fun stack hstack => removeDotSegmentsLoop_pieces (y :: segments) stack fuel
        (fun z hz => hsegs z (by simp [hz])) hstack
        (by simp only [slashed, length_cons] at hfuel ⊢; omega)
      have hstep := step_slashed hx (continues_flatten (y :: segments)) (render stack)
      rw [removeDotSegmentsLoop_succ (by simp [slashed]), hstep]
      change _ = render (resolveSegments pieceKind (slashed [])
        (pushSegment pieceKind stack (slashed x)) ((y :: segments).map slashed))
      rw [pushSegment_slashed]
      by_cases hdot : x = dot
      · simp only [hdot, if_true, hne, if_false]
        exact ih stack hstack
      · obtain rfl | hdd := eq_or_ne x dotDot
        · simp only [hdot, if_false, if_true, hne, removeLastSegment_render hstack]
          exact ih stack.tail hstack.tail
        · simp only [hdot, hdd, if_false]
          rw [← render_cons]
          exact ih _ (.push hx hstack)

/-! ## The whole path -/

theorem pieceKind_of_not_mem {x : Octets} (hx : '/'.toUInt8 ∉ x) : pieceKind x = .name := by
  have hne : ∀ y : Octets, x ≠ slashed y := by
    rintro y rfl
    exact hx (by simp [slashed])
  simp only [pieceKind, hne, if_false]

/-- A path by its pieces. -/
theorem removeDotSegmentsLoop_join : ∀ (segments : List Octets) (first : Octets) (fuel : Nat),
    '/'.toUInt8 ∉ first → (∀ x ∈ segments, '/'.toUInt8 ∉ x) →
    (joinPath first segments).length ≤ fuel →
    removeDotSegmentsLoop fuel (joinPath first segments) []
      = render (resolveSegments pieceKind (slashed []) [] (pathPieces (first :: segments))) := by
  intro segments
  induction segments with
  | nil =>
    intro first fuel hfirst hsegs hfuel
    by_cases hne : first = []
    · subst hne
      exact removeDotSegmentsLoop_nil fuel []
    · have hjoin : joinPath first [] = first := by simp [joinPath]
      rw [hjoin] at hfuel ⊢
      obtain ⟨fuel, rfl⟩ := Nat.exists_eq_add_of_le'
        (Nat.le_trans (length_pos_iff.mpr hne) hfuel)
      have hstep := step_first hfirst hne (.inl rfl)
      rw [append_nil] at hstep
      rw [removeDotSegmentsLoop_succ hne, hstep, pathPieces]
      by_cases hdots : first = dot ∨ first = dotDot
      · simp only [hdots, if_true, tail_nil, removeDotSegmentsLoop_nil]
        rfl
      · simp only [hdots, hne, if_false, removeDotSegmentsLoop_nil, map_nil,
          resolveSegments, pushLastSegment, pieceKind_of_not_mem hfirst, render_cons, render_nil,
          nil_append]
  | cons y segments ih =>
    intro first fuel hfirst hsegs hfuel
    have hflat : (slashed y ++ (segments.map slashed).flatten)
        = ((y :: segments).map slashed).flatten := rfl
    by_cases hne : first = []
    · subst hne
      exact removeDotSegmentsLoop_pieces (y :: segments) [] fuel hsegs .nil hfuel
    · have hlen : first.length + (joinPath y segments).length + 1 ≤ fuel := by
        simp only [joinPath, length_append, map_cons, flatten_cons, slashed,
          length_cons] at hfuel ⊢
        omega
      obtain ⟨fuel, rfl⟩ : ∃ n, fuel = n + 1 := ⟨fuel - 1, by omega⟩
      have hnil : joinPath first (y :: segments) ≠ [] := by simp [joinPath, hne]
      have hstep := step_first hfirst hne (continues_flatten (y :: segments))
      rw [removeDotSegmentsLoop_succ hnil]
      simp only [joinPath] at hstep ⊢
      rw [hstep, pathPieces]
      by_cases hdots : first = dot ∨ first = dotDot
      · simp only [hdots, if_true]
        exact ih y fuel (hsegs y (by simp)) (fun x hx => hsegs x (by simp [hx])) (by omega)
      · simp only [hdots, hne, if_false]
        have hpos := length_pos_iff.mpr hne
        have hpieces := removeDotSegmentsLoop_pieces (y :: segments) [first] fuel hsegs
          (.first hfirst) (by
            simp only [joinPath, length_append, map_cons, flatten_cons, slashed,
              length_cons] at hfuel ⊢
            omega)
        simp only [render_cons, render_nil, nil_append] at hpieces
        rw [hpieces]
        simp only [resolveSegments, map_cons, pushSegment, pieceKind_of_not_mem hfirst]

/-- Every path is a first segment and others behind separators. -/
theorem splitOn_slash (path : Octets) : ∃ first segments,
    path.splitOn '/'.toUInt8 = first :: segments ∧ path = joinPath first segments ∧
      '/'.toUInt8 ∉ first ∧ ∀ x ∈ segments, '/'.toUInt8 ∉ x := by
  obtain ⟨a, ha, hpath | ⟨b, hpath⟩⟩ := exists_cut '/'.toUInt8 path
  · refine ⟨path, [], splitOn_eq_singleton (hpath ▸ ha), ?_, hpath ▸ ha, by simp⟩
    simp [joinPath]
  · obtain ⟨first, segments, hsplit, hjoin, hfirst, hsegs⟩ := splitOn_slash b
    refine ⟨a, first :: segments, ?_, ?_, ha, ?_⟩
    · rw [hpath, splitOn_append_cons_self_of_not_mem ha, hsplit]
    · rw [hpath]
      conv_lhs => rw [hjoin]
      rfl
    · rintro x (_ | ⟨_, hx⟩)
      · exact hfirst
      · exact hsegs x hx
termination_by path.length
decreasing_by
  rw [hpath]
  simp only [length_append, length_cons]
  omega

/-- `removeDotSegments` is the segment stack over the pieces of the path. -/
theorem removeDotSegments_eq (path : Octets) :
    removeDotSegments path = render
      (resolveSegments pieceKind (slashed []) [] (pathPieces (path.splitOn '/'.toUInt8))) := by
  obtain ⟨first, segments, hsplit, hjoin, hfirst, hsegs⟩ := splitOn_slash path
  rw [hsplit, removeDotSegments]
  conv_lhs => rw [hjoin]
  exact removeDotSegmentsLoop_join segments first _ hfirst hsegs le_rfl

/-! ## What comes out -/

/-- The stack stays an output. -/
theorem isOutput_resolveSegments : ∀ (segments stack : List Octets),
    (∀ x ∈ segments, '/'.toUInt8 ∉ x) → IsOutput stack →
    IsOutput (resolveSegments pieceKind (slashed []) stack (segments.map slashed))
  | [], _, _, hstack => hstack
  | [x], stack, hsegs, hstack => by
      change IsOutput (pushLastSegment pieceKind (slashed []) stack (slashed x))
      rw [pushLastSegment_slashed]
      split_ifs
      · exact .push (by simp) hstack
      · exact .push (by simp) hstack.tail
      · exact .push (hsegs x (by simp)) hstack
  | x :: y :: segments, stack, hsegs, hstack => by
      exact isOutput_resolveSegments (y :: segments) _ (fun z hz => hsegs z (by simp [hz]))
        (hstack.pushSegment (hsegs x (by simp)))

/-- The pieces are a first segment, when there is one, which is no dot
segment, and others behind separators. -/
theorem pathPieces_cases : ∀ (segments : List Octets) (first : Octets),
    ∃ (f : Octets) (segs : List Octets),
    pathPieces (first :: segments) = (if f = [] then [] else [f]) ++ segs.map slashed ∧
      (f = [] ∨ f ∈ first :: segments) ∧ f ≠ dot ∧ f ≠ dotDot ∧ (first = [] → f = []) ∧
      ∀ x ∈ segs, x ∈ segments := by
  intro segments
  induction segments with
  | nil =>
    intro first
    by_cases hdots : first = dot ∨ first = dotDot
    · exact ⟨[], [], by simp [pathPieces, hdots], .inl rfl, by decide, by decide, fun _ => rfl,
        by simp⟩
    · rw [not_or] at hdots
      refine ⟨first, [], ?_, .inr (by simp), hdots.1, hdots.2, id, by simp⟩
      simp [pathPieces, hdots]
  | cons y segments ih =>
    intro first
    by_cases hdots : first = dot ∨ first = dotDot
    · obtain ⟨f, segs, hpieces, hf, hdot, hdd, -, hsegs⟩ := ih y
      refine ⟨f, segs, ?_, hf.imp_right fun h => mem_cons_of_mem _ h, hdot, hdd, ?_,
        fun x hx => mem_cons_of_mem _ (hsegs x hx)⟩
      · rw [pathPieces, if_pos hdots, hpieces]
      · rintro rfl
        exact absurd hdots (by decide)
    · have hne := not_or.mp hdots
      refine ⟨first, y :: segments, ?_, .inr (by simp), hne.1, hne.2, id, fun x hx => hx⟩
      rw [pathPieces, if_neg hdots]
      split_ifs <;> simp

/-- A first segment is pushed before anything can be popped. -/
theorem resolveSegments_first {f : Octets} (hf : '/'.toUInt8 ∉ f) (pieces : List Octets) :
    resolveSegments pieceKind (slashed []) [] ((if f = [] then [] else [f]) ++ pieces)
      = resolveSegments pieceKind (slashed []) (if f = [] then [] else [f]) pieces := by
  split_ifs
  · rfl
  · cases pieces with
    | nil =>
      simp only [append_nil, resolveSegments, pushLastSegment, pieceKind_of_not_mem hf]
    | cons p pieces =>
      simp only [singleton_append, resolveSegments, pushSegment, pieceKind_of_not_mem hf]

theorem IsOutput.exists_join (h : IsOutput stack) : ∃ f segs,
    render stack = joinPath f segs ∧ '/'.toUInt8 ∉ f ∧ (f = [] ∨ f ∈ stack) ∧
      ∀ x ∈ segs, '/'.toUInt8 ∉ x ∧ slashed x ∈ stack := by
  induction h with
  | nil => exact ⟨[], [], rfl, by simp, .inl rfl, by simp⟩
  | @first x hx => exact ⟨x, [], by simp [joinPath], hx, .inr (by simp), by simp⟩
  | @push x stack hx _ ih =>
    obtain ⟨f, segs, hrender, hf, hmem, hsegs⟩ := ih
    refine ⟨f, segs ++ [x], ?_, hf, hmem.imp_right (mem_cons_of_mem _), ?_⟩
    · rw [render_cons, hrender]
      simp [joinPath]
    · intro y hy
      rcases mem_append.mp hy with hy | hy
      · exact ⟨(hsegs y hy).1, mem_cons_of_mem _ (hsegs y hy).2⟩
      · obtain rfl := mem_singleton.mp hy
        exact ⟨hx, by simp⟩

/-- A path without dot segments. -/
structure DotFree (first : Octets) (segments : List Octets) : Prop where
  first_not_mem : '/'.toUInt8 ∉ first
  first_ne : first ≠ dot ∧ first ≠ dotDot
  not_mem : ∀ x ∈ segments, '/'.toUInt8 ∉ x
  ne : ∀ x ∈ segments, x ≠ dot ∧ x ≠ dotDot

/-- The result has no dot segments, and no segment but empty ones which was
not there before. A path which starts with a separator still does. -/
theorem removeDotSegments_dotFree {first : Octets} {segments : List Octets}
    (hfirst : '/'.toUInt8 ∉ first) (hsegs : ∀ x ∈ segments, '/'.toUInt8 ∉ x) : ∃ f segs,
    removeDotSegments (joinPath first segments) = joinPath f segs ∧ DotFree f segs ∧
      (f = [] ∨ f ∈ first :: segments) ∧ (∀ x ∈ segs, x = [] ∨ x ∈ segments) ∧
      (first = [] → f = []) := by
  have hloop := removeDotSegmentsLoop_join segments first _ hfirst hsegs le_rfl
  obtain ⟨f, segs, hpieces, hf, hdot, hdd, habs, hmem⟩ := pathPieces_cases segments first
  have hfm : '/'.toUInt8 ∉ f := by
    rcases hf with rfl | hf
    · simp
    · rcases mem_cons.mp hf with rfl | hf
      · exact hfirst
      · exact hsegs f hf
  have hsm : ∀ x ∈ segs, '/'.toUInt8 ∉ x := fun x hx => hsegs x (hmem x hx)
  have hstack : IsOutput (if f = [] then [] else [f]) := by
    split_ifs
    · exact .nil
    · exact .first hfm
  rw [hpieces, resolveSegments_first hfm] at hloop
  have hout := isOutput_resolveSegments segs _ hsm hstack
  have hkept : ∀ p ∈ resolveSegments pieceKind (slashed []) (if f = [] then [] else [f])
      (segs.map slashed), p = f ∨ ∃ x, p = slashed x ∧ x ≠ dot ∧ x ≠ dotDot ∧
        (x = [] ∨ x ∈ segs) := by
    refine resolveSegments_forall pieceKind (slashed []) ?_ _ _ ?_ ?_
    · exact .inr ⟨[], rfl, by decide, by decide, .inl rfl⟩
    · intro p hp
      split_ifs at hp
      · simp at hp
      · exact .inl (mem_singleton.mp hp)
    · intro p hp hk
      obtain ⟨x, hx, rfl⟩ := mem_map.mp hp
      rw [pieceKind_slashed] at hk
      refine .inr ⟨x, rfl, ?_, ?_, .inr hx⟩
      · rintro rfl
        simp [SegmentKind.kept] at hk
      · rintro rfl
        rw [if_neg (by decide), if_pos rfl] at hk
        simp [SegmentKind.kept] at hk
  obtain ⟨f', segs', hrender, hf', hmem', hsegs'⟩ := hout.exists_join
  have hff : f' = [] ∨ f' = f := by
    rcases hmem' with rfl | hm
    · exact .inl rfl
    · rcases hkept f' hm with rfl | ⟨x, rfl, -⟩
      · exact .inr rfl
      · exact absurd (by simp [slashed]) hf'
  have hseg : ∀ x ∈ segs', x ≠ dot ∧ x ≠ dotDot ∧ (x = [] ∨ x ∈ segments) := by
    intro x hx
    rcases hkept _ (hsegs' x hx).2 with h | ⟨y, hxy, hd, hd', hy⟩
    · exact absurd (by rw [← h]; simp [slashed]) hfm
    · obtain rfl : x = y := (List.cons.inj hxy).2
      exact ⟨hd, hd', hy.imp_right (hmem x)⟩
  refine ⟨f', segs', ?_, ?_, ?_, fun x hx => (hseg x hx).2.2, ?_⟩
  · rw [removeDotSegments, hloop, hrender]
  · exact {
      first_not_mem := hf'
      first_ne := by
        rcases hff with rfl | rfl
        · decide
        · exact ⟨hdot, hdd⟩
      not_mem := fun x hx => (hsegs' x hx).1
      ne := fun x hx => ⟨(hseg x hx).1, (hseg x hx).2.1⟩ }
  · rcases hff with rfl | rfl
    · exact .inl rfl
    · exact hf
  · intro h
    rcases hff with rfl | rfl
    · rfl
    · exact habs h

theorem DotFree.removeDotSegments_eq {first : Octets} {segments : List Octets}
    (h : DotFree first segments) :
    removeDotSegments (joinPath first segments) = joinPath first segments := by
  have hloop := removeDotSegmentsLoop_join segments first _ h.first_not_mem h.not_mem le_rfl
  rw [removeDotSegments, hloop, pathPieces, if_neg (not_or.mpr h.first_ne)]
  have hkept : ∀ p ∈ segments.map slashed, (pieceKind p).kept = true := by
    intro p hp
    obtain ⟨x, hx, rfl⟩ := mem_map.mp hp
    rw [pieceKind_slashed, if_neg (h.ne x hx).1, if_neg (h.ne x hx).2]
    split_ifs <;> rfl
  split_ifs with hnil
  · subst hnil
    rw [resolveSegments_of_kept pieceKind _ _ _ hkept]
    simp [render, joinPath]
  · rw [resolveSegments_of_kept pieceKind]
    · simp [render, joinPath]
    · rintro p (_ | ⟨_, hp⟩)
      · rw [pieceKind_of_not_mem h.first_not_mem]
        rfl
      · exact hkept p hp

theorem removeDotSegments_idem (path : Octets) :
    removeDotSegments (removeDotSegments path) = removeDotSegments path := by
  obtain ⟨first, segments, -, hjoin, hfirst, hsegs⟩ := splitOn_slash path
  obtain ⟨f, segs, hremove, hfree, -⟩ := removeDotSegments_dotFree hfirst hsegs
  rw [hjoin, hremove, hfree.removeDotSegments_eq]

theorem removeDotSegments_abempty {path : Octets}
    (h : path = [] ∨ ∃ q, path = '/'.toUInt8 :: q) :
    removeDotSegments path = [] ∨ ∃ q, removeDotSegments path = '/'.toUInt8 :: q := by
  obtain ⟨first, segments, -, hjoin, hfirst, hsegs⟩ := splitOn_slash path
  have hnil : first = [] := by
    cases first with
    | nil => rfl
    | cons c first =>
      rw [hjoin, joinPath] at h
      rcases h with h | ⟨q, h⟩
      · simp at h
      · exact absurd (by simp [(List.cons.inj h).1]) hfirst
  obtain ⟨f, segs, hremove, -, -, -, habs⟩ := removeDotSegments_dotFree hfirst hsegs
  rw [hjoin, hremove, habs hnil]
  cases segs with
  | nil => exact .inl rfl
  | cons x segs => exact .inr ⟨_, rfl⟩

theorem splitOn_joinPath : ∀ (segments : List Octets) {first : Octets}, '/'.toUInt8 ∉ first →
    (∀ x ∈ segments, '/'.toUInt8 ∉ x) →
    (joinPath first segments).splitOn '/'.toUInt8 = first :: segments := by
  intro segments
  induction segments with
  | nil =>
    intro first hfirst _
    simp [joinPath, splitOn_eq_singleton hfirst]
  | cons x segments ih =>
    intro first hfirst hsegs
    have hjoin : joinPath first (x :: segments) = first ++ '/'.toUInt8 :: joinPath x segments := by
      simp [joinPath, slashed]
    rw [hjoin, splitOn_append_cons_self_of_not_mem hfirst,
      ih (hsegs x (by simp)) fun y hy => hsegs y (by simp [hy])]

theorem removeDotSegments_not_dots (path : Octets) :
    ∀ segment ∈ (removeDotSegments path).splitOn '/'.toUInt8,
      segment ≠ dot ∧ segment ≠ dotDot := by
  obtain ⟨first, segments, -, hjoin, hfirst, hsegs⟩ := splitOn_slash path
  obtain ⟨f, segs, hremove, hfree, -⟩ := removeDotSegments_dotFree hfirst hsegs
  rw [hjoin, hremove, splitOn_joinPath segs hfree.first_not_mem hfree.not_mem]
  intro segment hmem
  rcases mem_cons.mp hmem with rfl | hmem
  · exact hfree.first_ne
  · exact hfree.ne segment hmem

/-! ## The loop ends -/

/-- A segment is never empty: its search starts after a separator in front. -/
theorem find_slash_pos {input : Octets} {next : Nat}
    (h : find input '/'.toUInt8 (if input.head? == some '/'.toUInt8 then 1 else 0) = some next) :
    0 < next := by
  rw [find, Option.map_eq_some_iff] at h
  obtain ⟨n, hn, rfl⟩ := h
  split at hn
  · split <;> omega
  · rename_i hhead
    cases input with
    | nil => simp at hn
    | cons ch input =>
      have hne : ch ≠ '/'.toUInt8 := by simpa using hhead
      rcases Nat.eq_zero_or_pos n with rfl | hpos
      · simp [idxOf?_cons, hne] at hn
      · omega

theorem removeDotSegmentsStep_length {input : Octets} (hne : input ≠ []) (output : Octets) :
    (removeDotSegmentsStep input output).1.length < input.length := by
  have hpos : 0 < input.length := length_pos_iff.mpr hne
  rw [removeDotSegmentsStep]
  by_cases h1 : octets "../" <+: input
  · rw [if_pos h1, length_drop]
    omega
  by_cases h2 : octets "./" <+: input
  · rw [if_neg h1, if_pos h2, length_drop]
    omega
  by_cases h3 : octets "/./" <+: input
  · rw [if_neg h1, if_neg h2, if_pos h3, length_drop]
    omega
  rw [if_neg h1, if_neg h2, if_neg h3]
  by_cases h4 : input = octets "/."
  · rw [if_pos h4, h4]
    exact Nat.lt_succ_self 1
  by_cases h5 : octets "/../" <+: input
  · rw [if_neg h4, if_pos h5, length_drop]
    omega
  by_cases h6 : input = octets "/.."
  · rw [if_neg h4, if_neg h5, if_pos h6, h6]
    exact (by decide : 1 < 3)
  rw [if_neg h4, if_neg h5, if_neg h6]
  by_cases h7 : input = octets "." ∨ input = octets ".."
  · rwa [if_pos h7]
  rw [if_neg h7]
  cases hfind : find input '/'.toUInt8 (if input.head? == some '/'.toUInt8 then 1 else 0) with
  | none => exact hpos
  | some next =>
    have hnext := find_slash_pos hfind
    simp only [length_drop]
    omega

/-- Enough passes read the whole input, and a pass over nothing changes nothing. -/
theorem removeDotSegmentsLoop_fuel : ∀ (fuel : Nat) (input output : Octets), input.length ≤ fuel →
    (fun s : Octets × Octets => removeDotSegmentsStep s.1 s.2)^[fuel] (input, output) =
      ([], removeDotSegmentsLoop fuel input output) := by
  intro fuel
  induction fuel with
  | zero =>
    intro input output hlen
    have hnil : input = [] := eq_nil_of_length_eq_zero (Nat.le_zero.mp hlen)
    subst hnil
    rfl
  | succ fuel ih =>
    intro input output hlen
    rw [Function.iterate_succ_apply]
    by_cases hne : input = []
    · subst hne
      have hstep : removeDotSegmentsStep [] output = ([], output) := by
        simp [removeDotSegmentsStep, find, octets]
      rw [hstep, ih [] output (Nat.zero_le _)]
      simp [removeDotSegmentsLoop_nil]
    · have hshorter := removeDotSegmentsStep_length hne output
      rw [removeDotSegmentsLoop_succ hne]
      exact ih (removeDotSegmentsStep input output).1 (removeDotSegmentsStep input output).2
        (by omega)

/-- The loop reads the whole path and leaves what is on the stack of its
segments, which nothing is left to be removed from. -/
theorem removeDotSegments_meaning (path : Octets) :
    (fun s : Octets × Octets => removeDotSegmentsStep s.1 s.2)^[path.length] (path, []) =
        ([], removeDotSegments path) ∧
      removeDotSegments path = render
        (resolveSegments pieceKind (slashed []) [] (pathPieces (path.splitOn '/'.toUInt8))) ∧
      removeDotSegments (removeDotSegments path) = removeDotSegments path ∧
      ∀ segment ∈ (removeDotSegments path).splitOn '/'.toUInt8,
        segment ≠ dot ∧ segment ≠ dotDot := by
  refine ⟨removeDotSegmentsLoop_fuel path.length path [] (Nat.le_refl _),
    removeDotSegments_eq path, removeDotSegments_idem path, removeDotSegments_not_dots path⟩

/-! ## When the result starts with two separators -/

/-- Above the bottom piece every piece has its separator. -/
theorem IsOutput.bottom (h : IsOutput stack) :
    ∀ {t : List Octets} {bottom : Octets}, stack = t ++ [bottom] →
      ('/'.toUInt8 ∉ bottom ∨ ∃ x, bottom = slashed x ∧ '/'.toUInt8 ∉ x) ∧
        (t ≠ [] → ∃ rest, render t = slashed rest) := by
  induction h with
  | nil => simp
  | @first x hx =>
    intro t bottom e
    obtain ⟨rfl, e⟩ := append_inj' (show [] ++ [x] = t ++ [bottom] from e) rfl
    obtain rfl := singleton_inj.mp e
    exact ⟨.inl hx, fun h => absurd rfl h⟩
  | @push x stack hx _ ih =>
    intro t bottom e
    cases t with
    | nil =>
      obtain ⟨rfl, rfl⟩ := List.cons.inj e
      exact ⟨.inr ⟨x, rfl, hx⟩, fun h => absurd rfl h⟩
    | cons p t =>
      rw [cons_append] at e
      obtain ⟨rfl, rfl⟩ := List.cons.inj e
      obtain ⟨hbottom, hrest⟩ := ih rfl
      refine ⟨hbottom, fun _ => ?_⟩
      by_cases ht : t = []
      · exact ⟨x, by rw [ht, render_cons, render_nil, nil_append]⟩
      · obtain ⟨rest, hrest⟩ := hrest ht
        exact ⟨rest ++ slashed x, by rw [render_cons, hrest]; rfl⟩

/-- The text of a stack starts with two separators when its bottom piece is
an empty segment and there is another piece on it. -/
theorem IsOutput.slashes_iff (h : IsOutput stack) (hnil : [] ∉ stack) :
    octets "//" <+: render stack ↔ ∃ t bottom,
      stack = t ++ [bottom] ∧ t ≠ [] ∧ pieceKind bottom = .empty := by
  have hslashes : octets "//" = slashed (slashed []) := rfl
  rw [hslashes]
  constructor
  · intro hpre
    have hne : stack ≠ [] := by
      rintro rfl
      exact absurd hpre (by decide)
    obtain ⟨t, bottom, rfl⟩ := (eq_nil_or_concat' stack).resolve_left hne
    have hrender : render (t ++ [bottom]) = bottom ++ render t := by simp [render]
    rw [hrender] at hpre
    refine ⟨t, bottom, rfl, ?_⟩
    have hbottom := (h.bottom rfl).1
    rcases hbottom with hb | ⟨x, rfl, hx⟩
    · cases bottom with
      | nil => exact absurd (by simp) hnil
      | cons c b =>
        rw [cons_append, slashed, cons_prefix_cons] at hpre
        exact absurd (by simp [hpre.1]) hb
    · have hpre := (cons_prefix_cons.mp (show '/'.toUInt8 :: slashed [] <+:
        '/'.toUInt8 :: (x ++ render t) from hpre)).2
      cases x with
      | cons c x =>
        rw [cons_append, slashed, cons_prefix_cons] at hpre
        exact absurd (by simp [hpre.1]) hx
      | nil =>
        refine ⟨?_, by decide⟩
        rintro rfl
        exact absurd hpre (by decide)
  · rintro ⟨t, bottom, rfl, hne, hkind⟩
    obtain rfl : bottom = slashed [] := by
      simp only [pieceKind] at hkind
      split_ifs at hkind with h1 h2 h3
      exact h3
    obtain ⟨rest, hrest⟩ := (h.bottom rfl).2 hne
    have hrender : render (t ++ [slashed []]) = slashed (slashed rest) := by
      rw [← hrest]
      simp [render, slashed]
    rw [hrender]
    exact ⟨rest, rfl⟩

/-! ## Kinds of segments as written -/

/-- A "." as written, itself or percent-encoded. -/
def writtenDots : List Octets := [octets ".", octets "%2E", octets "%2e"]

/-- What a segment is once its octets are normalised. -/
def segmentKind (segment : Octets) : SegmentKind :=
  if segment = [] then .empty
  else if writtenDots.contains segment then .current
  else if writtenDots.any fun d => writtenDots.any fun e => segment == d ++ e then .parent
  else .name

/-- Leading dot segments are dropped, and so is the text before a leading
separator. -/
def afterLeading : List SegmentKind → List SegmentKind
  | [] => []
  | .current :: ks => afterLeading ks
  | .parent :: ks => afterLeading ks
  | .empty :: ks => ks
  | .name :: ks => .name :: ks

/-- The kinds of the segments of a path as written. -/
def pathKinds (path : Octets) : List SegmentKind :=
  afterLeading ((path.splitOn '/'.toUInt8).map segmentKind)

/-- What a segment is when no octet of it is encoded. -/
def plainKind (segment : Octets) : SegmentKind :=
  if segment = [] then .empty
  else if segment = dot then .current
  else if segment = dotDot then .parent
  else .name

theorem pieceKind_eq_plainKind (x : Octets) : pieceKind (slashed x) = plainKind x := by
  rw [pieceKind_slashed, plainKind]
  by_cases hnil : x = []
  · subst hnil
    decide
  · simp only [hnil, if_false]

theorem pathPieces_kinds : ∀ l : List Octets, (∀ x ∈ l, '/'.toUInt8 ∉ x) →
    (pathPieces l).map pieceKind = afterLeading (l.map plainKind)
  | [], _ => rfl
  | first :: segments, h => by
      have hslashed : (segments.map slashed).map pieceKind = segments.map plainKind := by
        rw [List.map_map]
        exact map_congr_left fun x _ => pieceKind_eq_plainKind x
      have ih := pathPieces_kinds segments fun x hx => h x (by simp [hx])
      rw [pathPieces, map_cons]
      split_ifs with hdots hnil
      · have hk : plainKind first = .current ∨ plainKind first = .parent := by
          rcases hdots with rfl | rfl
          · exact .inl (by decide)
          · exact .inr (by decide)
        rcases hk with hk | hk <;> rw [hk, ih] <;> rfl
      · subst hnil
        rw [hslashed]
        rfl
      · have hk : plainKind first = .name := by
          rw [not_or] at hdots
          simp only [plainKind, hnil, hdots.1, hdots.2, if_false]
        rw [map_cons, hslashed, pieceKind_of_not_mem (h first (by simp)), hk]
        rfl

theorem isOutput_pathPieces {first : Octets} {segments : List Octets}
    (hfirst : '/'.toUInt8 ∉ first) (hsegs : ∀ x ∈ segments, '/'.toUInt8 ∉ x) :
    IsOutput (resolveSegments pieceKind (slashed []) [] (pathPieces (first :: segments))) ∧
      [] ∉ resolveSegments pieceKind (slashed []) [] (pathPieces (first :: segments)) := by
  obtain ⟨f, segs, hpieces, hf, -, -, -, hmem⟩ := pathPieces_cases segments first
  have hfm : '/'.toUInt8 ∉ f := by
    rcases hf with rfl | hf
    · simp
    · rcases mem_cons.mp hf with rfl | hf
      · exact hfirst
      · exact hsegs f hf
  rw [hpieces, resolveSegments_first hfm]
  constructor
  · refine isOutput_resolveSegments segs _ (fun x hx => hsegs x (hmem x hx)) ?_
    split_ifs
    · exact .nil
    · exact .first hfm
  · intro hnil
    refine resolveSegments_forall pieceKind (slashed []) (P := (· ≠ [])) (by simp [slashed]) _ _
      ?_ ?_ _ hnil rfl
    · intro p hp
      split_ifs at hp with h
      · simp at hp
      · rwa [mem_singleton.mp hp]
    · intro p hp _
      obtain ⟨x, -, rfl⟩ := mem_map.mp hp
      simp [slashed]

/-- The result of the removal starts with two separators exactly when the
kinds of the segments say so. -/
theorem removeDotSegments_slashes_iff (path : Octets) :
    octets "//" <+: removeDotSegments path ↔
      EmptyFirst (afterLeading ((path.splitOn '/'.toUInt8).map plainKind)) := by
  obtain ⟨first, segments, hsplit, -, hfirst, hsegs⟩ := splitOn_slash path
  have hall : ∀ x ∈ first :: segments, '/'.toUInt8 ∉ x := by
    rintro x (_ | ⟨_, hx⟩)
    · exact hfirst
    · exact hsegs x hx
  obtain ⟨hout, hnil⟩ := isOutput_pathPieces hfirst hsegs
  rw [removeDotSegments_eq, hsplit, ← pathPieces_kinds _ hall,
    emptyFirst_iff pieceKind (slashed []), hout.slashes_iff hnil]

end Baselib.Core.Uri
