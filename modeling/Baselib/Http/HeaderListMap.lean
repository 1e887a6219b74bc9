/-
Baselib.Http.HeaderListMap — the header list and the unordered map.

`toMap` makes one entry of the fields with one name, whatever the order in
which the table is iterated. The entry is valid unless the last of several
values is empty, and it is that entry which `fromMap` takes or refuses.
The list `fromMap` makes does not depend on the order of the entries
exactly when the key of its comparator tells them apart.
-/
import Baselib.Http.HeaderListTheorems

namespace Baselib.Http.HeaderList

open Lib List
open HttpServer (HeadersMap)

variable {sort : List Header → List Header} {iteration : Iteration}

/-! ## Joined values -/

/-- The values in their order, with the separator between them. -/
def join (values : List Octets) : Octets := valueSeparator.intercalate values

theorem valueSeparator_eq : valueSeparator = [','.toUInt8, ' '.toUInt8] := by decide

theorem join_append_singleton {values : List Octets} (h : values ≠ []) (value : Octets) :
    join (values ++ [value]) = join values ++ valueSeparator ++ value := by
  induction values with
  | nil => exact absurd rfl h
  | cons v values ih =>
    rcases values with _ | ⟨w, values⟩
    · simp [join, intercalate_cons_cons]
    · have hrest := ih (by simp)
      simp only [join, cons_append, intercalate_cons_cons] at hrest ⊢
      rw [hrest]
      simp

theorem forall_mem_join {p : UInt8 → Prop} (hseparator : ∀ ch ∈ valueSeparator, p ch)
    {values : List Octets} (h : ∀ value ∈ values, ∀ ch ∈ value, p ch) :
    ∀ ch ∈ join values, p ch := by
  induction values with
  | nil => simp [join]
  | cons v values ih =>
    have hv := h v mem_cons_self
    have hrest := ih fun value hvalue => h value (mem_cons_of_mem _ hvalue)
    rcases values with _ | ⟨w, values⟩
    · simpa [join] using hv
    · intro ch hch
      simp only [join, intercalate_cons_cons, mem_append] at hch hrest
      rcases hch with (hch | hch) | hch
      · exact hv ch hch
      · exact hseparator ch hch
      · exact hrest ch hch

theorem isValidHeaderValue_iff {value : Octets} :
    isValidHeaderValue value = true ↔
      (∀ ch ∈ value, (isFieldVChar ch || isSpaceOrTab ch) = true) ∧
        (∀ ch ∈ value.head?, isSpaceOrTab ch = false) ∧
        ∀ ch ∈ value.getLast?, isSpaceOrTab ch = false := by
  have hany : ∀ o : Option UInt8,
      o.any isSpaceOrTab = false ↔ ∀ ch ∈ o, isSpaceOrTab ch = false := by
    intro o
    cases o <;> simp
  simp only [isValidHeaderValue, hasLeadingOrTrailingWhitespace, Bool.and_eq_true,
    all_eq_true, Bool.not_eq_true', Bool.or_eq_false_iff, hany]

theorem head?_join {values : List Octets} (h : ∀ value ∈ values, isValidHeaderValue value = true) :
    ∀ ch ∈ (join values).head?, isSpaceOrTab ch = false := by
  rcases values with _ | ⟨v, _ | ⟨w, values⟩⟩
  · simp [join]
  · have hv := (isValidHeaderValue_iff.mp (h v mem_cons_self)).2.1
    simpa [join] using hv
  · have hv := (isValidHeaderValue_iff.mp (h v mem_cons_self)).2.1
    intro ch hch
    rw [join, intercalate_cons_cons] at hch
    cases v with
    | nil =>
      have hcomma : ch = ','.toUInt8 := by
        simpa [valueSeparator_eq, eq_comm] using hch
      rw [hcomma]
      decide
    | cons c v => exact hv ch (by simpa using hch)

/-- A value to which others were joined is valid unless the last was empty:
the separator ends with a space. -/
theorem isValidHeaderValue_join {value : Octets} {values : List Octets}
    (h : ∀ v ∈ value :: values, isValidHeaderValue v = true) :
    isValidHeaderValue (join (value :: values)) = true ↔
      (values ≠ [] → (value :: values).getLast? ≠ some []) := by
  rcases eq_nil_or_concat values with rfl | ⟨init, last, rfl⟩
  · have hv := h value mem_cons_self
    simpa [join] using hv
  have hlast := isValidHeaderValue_iff.mp (h last (by simp))
  have hjoin : join (value :: (init ++ [last])) = join (value :: init) ++ valueSeparator ++ last :=
    join_append_singleton (cons_ne_nil value init) last
  rw [concat_eq_append] at h ⊢
  have hgetLast : (value :: (init ++ [last])).getLast? = some last := by
    rw [← cons_append, getLast?_concat]
  rw [isValidHeaderValue_iff, hgetLast]
  constructor
  · rintro ⟨-, -, hend⟩ - hempty
    rw [Option.some_inj] at hempty
    rw [hjoin, hempty, append_nil, valueSeparator_eq] at hend
    have hspace := hend ' '.toUInt8 (by simp)
    revert hspace
    decide
  · intro hnonempty
    refine ⟨forall_mem_join ?_ fun v hv => (isValidHeaderValue_iff.mp (h v hv)).1, head?_join h,
      fun ch hch => ?_⟩
    · rw [valueSeparator_eq]
      decide +kernel
    · have hne : last ≠ [] := fun e => hnonempty (by simp) (by rw [e])
      rw [hjoin, getLast?_append_of_ne_nil _ hne] at hch
      exact hlast.2.2 ch hch

/-! ## From the list to the map -/

/-- The entry of the fields with one name. -/
def joined : List Header → List (Octets × Octets)
  | [] => []
  | first :: rest => [(first.name, join ((first :: rest).map Header.value))]

/-- For every name the entries that match it are the entry of its fields. -/
def Folds (headers : List Header) (m : List (Octets × Octets)) : Prop :=
  ∀ name, (m.filter fun entry => equalsIgnoreCase entry.1 name)
    = joined (headers.filter fun header => equalsIgnoreCase header.name name)

theorem filter_congr_name {β : Type} (f : β → Octets) {a b : Octets}
    (h : equalsIgnoreCase a b = true) (xs : List β) :
    (xs.filter fun x => equalsIgnoreCase (f x) b) = xs.filter fun x => equalsIgnoreCase (f x) a := by
  refine filter_congr fun x _ => ?_
  rw [equalsIgnoreCase_comm, equalsIgnoreCase_comm (f x), equalsIgnoreCase_congr h]

/-- One round keeps the entries those of the fields folded so far. -/
theorem Folds.foldHeader {headers : List Header} {m : List (Octets × Octets)}
    (h : Folds headers m) (header : Header) :
    Folds (headers ++ [header]) (foldHeader iteration m header) := by
  have hperm := (iteration.perm m).filter fun entry => equalsIgnoreCase entry.1 header.name
  rw [h header.name] at hperm
  have hfind := head?_filter
    (p := fun entry : Octets × Octets => equalsIgnoreCase entry.1 header.name)
    (l := iteration.entries m)
  cases hnamed : headers.filter fun x => equalsIgnoreCase x.name header.name with
  | nil =>
    rw [hnamed, joined, perm_nil] at hperm
    rw [hperm, head?_nil] at hfind
    have hnil := h header.name
    rw [hnamed, joined] at hnil
    have hkey : header.name ∉ m.map Prod.fst := by
      intro hmem
      obtain ⟨entry, hentry, heq⟩ := mem_map.mp hmem
      have hin : entry ∈ m.filter fun entry => equalsIgnoreCase entry.1 header.name :=
        mem_filter.mpr ⟨hentry, by rw [heq, equalsIgnoreCase_self]⟩
      simp [hnil] at hin
    intro name
    simp only [HeaderList.foldHeader, ← hfind, assign, if_neg hkey, filter_append, h name]
    by_cases hname : equalsIgnoreCase header.name name = true
    · rw [filter_congr_name Header.name hname, hnamed]
      simp [hname, joined, join]
    · simp [hname]
  | cons first rest =>
    rw [hnamed, joined, perm_singleton] at hperm
    rw [hperm, head?_cons] at hfind
    have hentry := h header.name
    rw [hnamed, joined] at hentry
    set value := join ((first :: rest).map Header.value) with hvalue
    have hmem : (first.name, value) ∈ m := by
      have hin := mem_singleton_self (first.name, value)
      rw [← hentry] at hin
      exact (mem_filter.mp hin).1
    have hfirst : equalsIgnoreCase first.name header.name = true := by
      have hin := mem_cons_self (a := first) (l := rest)
      rw [← hnamed] at hin
      exact (mem_filter.mp hin).2
    have hkey : first.name ∈ m.map Prod.fst := mem_map.mpr ⟨_, hmem, rfl⟩
    intro name
    simp only [HeaderList.foldHeader, ← hfind, assign, if_pos hkey, filter_append]
    have hpreserved : ∀ entry : Octets × Octets,
        equalsIgnoreCase (if entry.1 = first.name
          then (first.name, value ++ valueSeparator ++ header.value) else entry).1 name
        = equalsIgnoreCase entry.1 name := by
      intro entry
      split_ifs with e
      · rw [e]
      · rfl
    rw [filter_map]
    simp only [Function.comp_def, hpreserved]
    by_cases hname : equalsIgnoreCase header.name name = true
    · rw [filter_congr_name Prod.fst hname, hentry, filter_congr_name Header.name hname, hnamed]
      have hjoin : join ((first :: rest).map Header.value ++ [header.value])
          = join ((first :: rest).map Header.value) ++ valueSeparator ++ header.value :=
        join_append_singleton (by simp) header.value
      simp only [map_cons, map_nil, if_true, hname, filter_cons_of_pos,
        filter_nil, cons_append, joined, map_append]
      rw [hvalue, ← hjoin]
      simp
    · rw [h name]
      have hsame : ∀ entry ∈ joined (headers.filter fun x => equalsIgnoreCase x.name name),
          (if entry.1 = first.name
            then (first.name, value ++ valueSeparator ++ header.value) else entry) = entry := by
        intro entry hin
        rw [← h name] at hin
        rw [if_neg]
        intro e
        have hin := (mem_filter.mp hin).2
        rw [e, equalsIgnoreCase_congr hfirst] at hin
        exact hname hin
      rw [map_congr_left hsame, map_id']
      simp [hname]

theorem toMap_folds (l : HeaderList) : Folds l.headers (toMap iteration l) := by
  have hloop : ∀ (headers pre : List Header) (m : List (Octets × Octets)), Folds pre m →
      Folds (pre ++ headers) (headers.foldl (HeaderList.foldHeader iteration) m) := by
    intro headers
    induction headers with
    | nil => simp
    | cons header headers ih =>
      intro pre m hm
      rw [append_cons, foldl_cons]
      exact ih _ _ (hm.foldHeader header)
  exact hloop l.headers [] [] fun name => rfl

theorem mem_toMap_iff {l : HeaderList} {pair : Octets × Octets} :
    pair ∈ toMap iteration l ↔ ∃ first rest, l.named pair.1 = first :: rest ∧
      pair = (first.name, join ((first :: rest).map Header.value)) := by
  have hfolds : Folds l.headers (toMap iteration l) := toMap_folds l
  have hself : pair ∈ toMap iteration l ↔
      pair ∈ (toMap iteration l).filter fun entry => equalsIgnoreCase entry.1 pair.1 := by
    simp [mem_filter]
  rw [hself, hfolds pair.1]
  change _ ∈ joined (l.named pair.1) ↔ _
  cases l.named pair.1 with
  | nil => simp [joined]
  | cons first rest => simp [joined]

/-- The map of a valid list is valid unless some name has several values of
which the last is empty. -/
theorem toMap_valid_iff (iteration : Iteration) {l : HeaderList} (hl : ∀ h ∈ l.headers, IsValid h) :
    (∀ pair ∈ toMap iteration l, IsValid ⟨pair.1, pair.2⟩) ↔
      ∀ name, 1 < l.count name → (l.getAll name).getLast? ≠ some [] := by
  have hvalues : ∀ name, ∀ h ∈ l.named name, IsValid h :=
    fun name h hh => hl h (mem_filter.mp hh).1
  have hentry : ∀ {name first rest}, l.named name = first :: rest →
      (IsValid ⟨first.name, join ((first :: rest).map Header.value)⟩ ↔
        (1 < l.count name → (l.getAll name).getLast? ≠ some [])) := by
    intro name first rest hnamed
    have hvalid := hvalues name
    rw [hnamed] at hvalid
    have hparts : ∀ v ∈ first.value :: rest.map Header.value, isValidHeaderValue v = true := by
      intro v hv
      rw [← map_cons] at hv
      obtain ⟨h, hh, rfl⟩ := mem_map.mp hv
      exact (hvalid h hh).2
    have hjoin := isValidHeaderValue_join hparts
    rw [IsValid, count_eq, getAll_eq, hnamed]
    simp only [(hvalid first mem_cons_self).1, true_and, map_cons, hjoin]
    simp [length_pos_iff]
  constructor
  · intro h name hcount
    have hnamed : l.named name ≠ [] := by
      intro e
      simp [count_eq, e] at hcount
    obtain ⟨first, rest, hnamed⟩ := exists_cons_of_ne_nil hnamed
    have hfirst : equalsIgnoreCase first.name name = true := by
      have hin := mem_cons_self (a := first) (l := rest)
      rw [← hnamed] at hin
      exact (mem_filter.mp hin).2
    have hsame : l.named first.name = first :: rest := by
      rw [← hnamed]
      exact (filter_congr_name Header.name hfirst l.headers).symm
    have hpair := h (first.name, join ((first :: rest).map Header.value))
      (mem_toMap_iff.mpr ⟨first, rest, hsame, rfl⟩)
    exact (hentry hnamed).mp hpair hcount
  · intro h pair hpair
    obtain ⟨first, rest, hnamed, heq⟩ := mem_toMap_iff.mp hpair
    rw [heq]
    exact (hentry hnamed).mpr (h pair.1)

/-! ## From the map to the list -/

/-- What is left of the list after the trip through a map: for each of its
names one field, with all values of the name. -/
def Survives (l : HeaderList) (result : Except HeaderException HeaderList) : Prop :=
  ∃ l', result = .ok l' ∧ ∀ name, l.has name = true →
    ∃ header, l'.named name = [header] ∧ header.value = join (l.getAll name)

theorem survives_of_valid (hsort : IsHeaderSort sort) {l : HeaderList}
    {pairs : List (Octets × Octets)} (hpairs : pairs.Perm (toMap iteration l))
    (hvalid : ∀ pair ∈ pairs, IsValid ⟨pair.1, pair.2⟩) : Survives l (fromMap sort pairs) := by
  refine ⟨_, fromMap_of_valid hvalid, fun name hname => ?_⟩
  obtain ⟨first, rest, hnamed⟩ := exists_cons_of_ne_nil (has_eq_true.mp hname)
  have hentries := hpairs.filter fun entry => equalsIgnoreCase entry.1 name
  rw [toMap_folds l name] at hentries
  change List.Perm _ (joined (l.named name)) at hentries
  rw [hnamed, joined, perm_singleton] at hentries
  refine ⟨⟨first.name, join ((first :: rest).map Header.value)⟩, ?_, by rw [getAll_eq, hnamed]⟩
  refine (isHeaderSort_iff.mp hsort).filter_eq_singleton ?_
  rw [filter_map]
  simp only [Function.comp_def]
  rw [hentries]
  rfl

/-- A list survives exactly when no name has several values of which the
last is empty. -/
theorem fromMap_toMap_iff (hsort : IsHeaderSort sort) {l : HeaderList} (hl : Reached sort l)
    {pairs : List (Octets × Octets)} (hpairs : pairs.Perm (toMap iteration l)) :
    Survives l (fromMap sort pairs) ↔
      ∀ name, 1 < l.count name → (l.getAll name).getLast? ≠ some [] := by
  have hmem : (∀ pair ∈ pairs, IsValid ⟨pair.1, pair.2⟩) ↔
      ∀ pair ∈ toMap iteration l, IsValid ⟨pair.1, pair.2⟩ :=
    forall_congr' fun pair => by rw [hpairs.mem_iff]
  rw [← toMap_valid_iff iteration (hl.valid hsort), ← hmem]
  constructor
  · rintro ⟨l', hl', -⟩
    by_contra hvalid
    obtain ⟨e, he⟩ := fromMap_of_not_valid sort hvalid
    simp [he] at hl'
  · exact survives_of_valid hsort hpairs

/-- A table which is iterated in the order its entries were made. -/
def inOrder : Iteration where
  entries m := m
  perm := List.Perm.refl

theorem fromMap_toMap_two :
    let l : HeaderList := ⟨[⟨octets "a", octets "1"⟩, ⟨octets "A", octets "2"⟩]⟩
    Survives l (fromMap headerSort (toMap inOrder l)) := by
  have hreached : Reached headerSort ⟨[⟨octets "a", octets "1"⟩, ⟨octets "A", octets "2"⟩]⟩ :=
    ⟨{}, [.append (octets "a") (octets "1"), .append (octets "A") (octets "2")], rfl, by decide⟩
  refine (fromMap_toMap_iff isHeaderSort_headerSort hreached (List.Perm.refl _)).mpr ?_
  intro name _ hlast
  have hvalue : ∀ value ∈ HeaderList.getAll
      ⟨[⟨octets "a", octets "1"⟩, ⟨octets "A", octets "2"⟩]⟩ name, value ≠ [] := by
    intro value hvalue
    rw [getAll_eq] at hvalue
    obtain ⟨header, hheader, rfl⟩ := List.mem_map.mp hvalue
    rcases List.mem_cons.mp (List.mem_filter.mp hheader).1 with rfl | hin
    · decide
    · rw [List.mem_singleton.mp hin]
      decide
  exact hvalue [] (List.mem_of_getLast? hlast) rfl

/-- The second of two values is empty: the separator is at the end. -/
theorem fromMap_toMap_empty :
    let l : HeaderList := ⟨[⟨octets "a", octets "x"⟩, ⟨octets "a", []⟩]⟩
    Reached headerSort l ∧ toMap inOrder l = [(octets "a", octets "x, ")] ∧
      ¬Survives l (fromMap headerSort (toMap inOrder l)) := by
  refine ⟨⟨{}, [.append (octets "a") (octets "x"), .append (octets "a") []], rfl, by decide⟩,
    by decide, ?_⟩
  rintro ⟨l', hl', -⟩
  have hvalid : ¬∀ pair ∈ [(octets "a", octets "x, ")], IsValid ⟨pair.1, pair.2⟩ := by decide
  obtain ⟨e, he⟩ := fromMap_of_not_valid headerSort hvalid
  rw [show toMap inOrder _ = [(octets "a", octets "x, ")] by decide, he] at hl'
  cases hl'

/-! ## The order of the map -/

theorem headerKey_eq_iff {a b : Header} :
    headerKey a = headerKey b ↔ equalsIgnoreCase a.name b.name = true ∧ a.value = b.value := by
  rw [headerKey, headerKey, EmbeddingLike.apply_eq_iff_eq, Prod.mk.injEq,
    textKey_injective.eq_iff, equalsIgnoreCase_iff]

/-- Every order of the fields is the order of some entries. -/
theorem exists_pairs {m : HeadersMap} {headers : List Header}
    (h : headers.Perm (m.entries.map fun pair => ⟨pair.1, pair.2⟩)) :
    ∃ pairs : List (Octets × Octets), pairs.Perm m.entries ∧
      headers = pairs.map fun pair => ⟨pair.1, pair.2⟩ := by
  refine ⟨headers.map fun header => (header.name, header.value), ?_, ?_⟩
  · have hpairs := h.map fun header => (header.name, header.value)
    simpa [Function.comp_def] using hpairs
  · simp [Function.comp_def]

/-- The same list for every order of the entries, and for every sort, exactly
when no entry is refused or the comparator tells the entries apart. -/
theorem fromMap_order_iff (m : HeadersMap) :
    (∀ sort, IsHeaderSort sort → ∀ pairs₁ pairs₂ : List (Octets × Octets),
      pairs₁.Perm m.entries → pairs₂.Perm m.entries →
      (fromMap sort pairs₁).toOption = (fromMap sort pairs₂).toOption) ↔
    (∃ pair ∈ m.entries, ¬IsValid ⟨pair.1, pair.2⟩) ∨
      ∀ a ∈ m.entries, ∀ b ∈ m.entries,
        equalsIgnoreCase a.1 b.1 = true → a.2 = b.2 → a.1 = b.1 := by
  have hvalid : ∀ {pairs : List (Octets × Octets)}, pairs.Perm m.entries →
      ((∀ pair ∈ pairs, IsValid ⟨pair.1, pair.2⟩) ↔
        ∀ pair ∈ m.entries, IsValid ⟨pair.1, pair.2⟩) :=
    fun hpairs => forall_congr' fun pair => by rw [hpairs.mem_iff]
  by_cases hall : ∀ pair ∈ m.entries, IsValid ⟨pair.1, pair.2⟩
  · have hnone : ¬∃ pair ∈ m.entries, ¬IsValid ⟨pair.1, pair.2⟩ := by
      rintro ⟨pair, hpair, h⟩
      exact h (hall pair hpair)
    have hnodup : (m.entries.map fun pair => (⟨pair.1, pair.2⟩ : Header)).Nodup := by
      refine m.nodup.of_map.map fun a b h => ?_
      obtain ⟨h₁, h₂⟩ := Header.mk.inj h
      exact Prod.ext h₁ h₂
    have hdetermined := sort_determined_iff headerKey hnodup
    simp only [List.forall_mem_map, headerKey_eq_iff, Header.mk.injEq, and_imp] at hdetermined
    rw [or_iff_right hnone]
    constructor
    · intro h a ha b hb hname hvalue
      refine (hdetermined.mp ?_ a ha b hb hname hvalue).1
      intro sort hsort l₁ l₂ h₁ h₂
      obtain ⟨pairs₁, hpairs₁, rfl⟩ := exists_pairs h₁
      obtain ⟨pairs₂, hpairs₂, rfl⟩ := exists_pairs h₂
      have heq := h sort (isHeaderSort_iff.mpr hsort) pairs₁ pairs₂ hpairs₁ hpairs₂
      rw [fromMap_of_valid ((hvalid hpairs₁).mpr hall),
        fromMap_of_valid ((hvalid hpairs₂).mpr hall)] at heq
      exact (HeaderList.mk.inj (Option.some.inj heq))
    · intro h sort hsort pairs₁ pairs₂ h₁ h₂
      have hsame := hdetermined.mpr
        (fun a ha b hb hname hvalue => ⟨h a ha b hb hname hvalue, hvalue⟩) sort
        (isHeaderSort_iff.mp hsort) _ _ (h₁.map _) (h₂.map _)
      rw [fromMap_of_valid ((hvalid h₁).mpr hall), fromMap_of_valid ((hvalid h₂).mpr hall), hsame]
  · have hsome : ∃ pair ∈ m.entries, ¬IsValid ⟨pair.1, pair.2⟩ := by
      push Not at hall
      exact hall
    simp only [hsome, true_or, iff_true]
    intro sort hsort pairs₁ pairs₂ h₁ h₂
    obtain ⟨e₁, he₁⟩ := fromMap_of_not_valid sort (fun h => hall ((hvalid h₁).mp h))
    obtain ⟨e₂, he₂⟩ := fromMap_of_not_valid sort (fun h => hall ((hvalid h₂).mp h))
    rw [he₁, he₂]
    rfl

/-- Two spellings of one name with one value. -/
def twoSpellings : HeadersMap where
  entries := [(octets "a", octets "x"), (octets "A", octets "x")]
  nodup := by decide

/-- The list comes out in the order of the table. -/
theorem fromMap_order_spellings :
    ∃ sort, IsHeaderSort sort ∧
      fromMap sort [(octets "a", octets "x"), (octets "A", octets "x")]
        = .ok ⟨[⟨octets "a", octets "x"⟩, ⟨octets "A", octets "x"⟩]⟩ ∧
      fromMap sort [(octets "A", octets "x"), (octets "a", octets "x")]
        = .ok ⟨[⟨octets "A", octets "x"⟩, ⟨octets "a", octets "x"⟩]⟩ ∧
      [(octets "A", octets "x"), (octets "a", octets "x")].Perm twoSpellings.entries := by
  have hsorted : ∀ a b : Header, headerKey a ≤ headerKey b → headerSort [a, b] = [a, b] := by
    intro a b h
    exact List.mergeSort_of_pairwise (by simpa using h)
  refine ⟨headerSort, isHeaderSort_headerSort, ?_, ?_, List.Perm.swap _ _ _⟩
  · rw [fromMap_of_valid (by decide), List.map_cons, List.map_cons, List.map_nil,
      hsorted _ _ (headerKey_eq_iff.mpr (by decide)).le]
  · rw [fromMap_of_valid (by decide), List.map_cons, List.map_cons, List.map_nil,
      hsorted _ _ (headerKey_eq_iff.mpr (by decide)).le]

end Baselib.Http.HeaderList
