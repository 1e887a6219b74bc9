/-
Baselib.Http.HeaderListTheorems — the header list as an ordered multimap.

Two names are one name when they fold to the same text, and the comparator
of `fromMap` is the order of a key, the folded name before the value. What a
member does to the list is stated over the list as a whole: the fields with
the name, and the others in their order. Every way in validates, so that
every list an operation leads to is valid.
-/
import Baselib.Http.HeaderList
import Mathlib.Data.Prod.Lex

namespace Baselib.Http.HeaderList

open Lib List

variable {sort : List Header → List Header} {l : HeaderList} {name value : Octets}

/-! ## The case fold -/

/-- A name without regard to case. -/
def nameKey (name : Octets) : List ℕ := name.map fun ch => (toLowerAsciiChar ch).toNat

/-- The values of the octets of a text. -/
def textKey (text : Octets) : List ℕ := text.map UInt8.toNat

/-- What the comparator orders by. -/
def headerKey (header : Header) : List ℕ ×ₗ List ℕ :=
  toLex (nameKey header.name, textKey header.value)

theorem textKey_injective : Function.Injective textKey :=
  map_injective_iff.mpr fun _ _ h => UInt8.toNat_inj.mp h

theorem equalsIgnoreCase_iff {lhs rhs : Octets} :
    equalsIgnoreCase lhs rhs = true ↔ nameKey lhs = nameKey rhs := by
  induction lhs generalizing rhs with
  | nil => cases rhs <;> simp [equalsIgnoreCase, nameKey]
  | cons l lhs ih =>
    cases rhs with
    | nil => simp [equalsIgnoreCase, nameKey]
    | cons r rhs =>
      have hrest : equalsIgnoreCase (l :: lhs) (r :: rhs) = true ↔
          toLowerAsciiChar l = toLowerAsciiChar r ∧ equalsIgnoreCase lhs rhs = true := by
        by_cases hlength : lhs.length = rhs.length
        · simp [equalsIgnoreCase, hlength]
        · simp [equalsIgnoreCase, hlength]
      rw [hrest, ih]
      simp [nameKey, UInt8.toNat_inj]

theorem equalsIgnoreCase_comm (lhs rhs : Octets) :
    equalsIgnoreCase lhs rhs = equalsIgnoreCase rhs lhs := by
  rw [Bool.eq_iff_iff, equalsIgnoreCase_iff, equalsIgnoreCase_iff, eq_comm]

@[simp] theorem equalsIgnoreCase_self (name : Octets) : equalsIgnoreCase name name = true :=
  equalsIgnoreCase_iff.mpr rfl

theorem equalsIgnoreCase_congr {a b : Octets} (h : equalsIgnoreCase a b = true) (c : Octets) :
    equalsIgnoreCase a c = equalsIgnoreCase b c := by
  rw [Bool.eq_iff_iff, equalsIgnoreCase_iff, equalsIgnoreCase_iff, equalsIgnoreCase_iff.mp h]

theorem lessIgnoreCase_iff {lhs rhs : Octets} :
    lessIgnoreCase lhs rhs = true ↔ nameKey lhs < nameKey rhs := by
  induction lhs generalizing rhs with
  | nil => cases rhs <;> simp [lessIgnoreCase, nameKey]
  | cons l lhs ih =>
    cases rhs with
    | nil => simp [lessIgnoreCase, nameKey]
    | cons r rhs =>
      simp only [lessIgnoreCase, nameKey, map_cons, cons_lt_cons_iff] at ih ⊢
      by_cases h : toLowerAsciiChar l = toLowerAsciiChar r
      · simp [h, ih]
      · simp [h, UInt8.toNat_inj, UInt8.lt_iff_toNat_lt]

theorem lessText_iff {lhs rhs : Octets} :
    lessText lhs rhs = true ↔ textKey lhs < textKey rhs := by
  induction lhs generalizing rhs with
  | nil => cases rhs <;> simp [lessText, textKey]
  | cons l lhs ih =>
    cases rhs with
    | nil => simp [lessText, textKey]
    | cons r rhs =>
      simp only [lessText, textKey, map_cons, cons_lt_cons_iff] at ih ⊢
      by_cases h : l = r
      · simp [h, ih]
      · simp [h, UInt8.toNat_inj, UInt8.lt_iff_toNat_lt]

theorem headerLess_iff {lhs rhs : Header} :
    headerLess lhs rhs = true ↔ headerKey lhs < headerKey rhs := by
  rw [headerKey, headerKey, Prod.Lex.toLex_lt_toLex, headerLess]
  by_cases h : equalsIgnoreCase lhs.name rhs.name = true
  · simp [h, equalsIgnoreCase_iff.mp h, lessText_iff]
  · have hne : nameKey lhs.name ≠ nameKey rhs.name := fun e => h (equalsIgnoreCase_iff.mpr e)
    simp [h, hne, lessIgnoreCase_iff]

/-- The promise of `std::sort` is that of a sort by the key. -/
theorem isHeaderSort_iff : IsHeaderSort sort ↔ IsSort headerKey sort := by
  have hle : ∀ a b : Header, headerLess b a = false ↔ headerKey a ≤ headerKey b := by
    intro a b
    rw [← not_lt, ← headerLess_iff, Bool.not_eq_true]
  simp only [IsHeaderSort, IsSort, hle]

/-! ## Validation -/

/-- A name and a value the list takes. -/
def IsValid (header : Header) : Prop :=
  isValidHeaderName header.name = true ∧ isValidHeaderValue header.value = true

instance : DecidablePred IsValid := fun header =>
  inferInstanceAs (Decidable (isValidHeaderName header.name = true ∧ _))

theorem validateHeader_of_valid (h : IsValid ⟨name, value⟩) :
    validateHeader name value = .ok () := by
  obtain ⟨hname, hvalue⟩ := h
  have hwhite : hasLeadingOrTrailingWhitespace value = false := by
    simp only [isValidHeaderValue, Bool.and_eq_true, Bool.not_eq_true'] at hvalue
    exact hvalue.2
  simp only at hname hvalue
  simp [validateHeader, hname, hvalue, hwhite]

theorem validateHeader_of_not_valid (h : ¬IsValid ⟨name, value⟩) :
    ∃ e, validateHeader name value = .error e := by
  unfold validateHeader
  split_ifs with hname hwhite hvalue
  · exact ⟨_, rfl⟩
  · exact ⟨_, rfl⟩
  · exact ⟨_, rfl⟩
  · exact absurd ⟨by simpa using hname, by simpa using hvalue⟩ h

/-! ## The loop of `set` and `removeAll` -/

/-- What the loop leaves: all below `stop`, the others of what it passed,
and what it started behind. -/
theorem eraseMatching_append (name : Octets) (stop : Nat) (a b : List Header) :
    eraseMatching name stop a.length (a ++ b)
      = a.take stop ++ (a.drop stop).filter (fun h => !equalsIgnoreCase h.name name) ++ b := by
  induction a using reverseRecOn generalizing b with
  | nil => simp [eraseMatching]
  | append_singleton a h ih =>
    rw [length_append, length_singleton, eraseMatching]
    by_cases hstop : stop < a.length + 1
    · have hle : stop ≤ a.length := by omega
      have hdrop : (a ++ [h]).drop stop = a.drop stop ++ [h] :=
        drop_append_of_le_length hle
      have htake : (a ++ [h]).take stop = a.take stop := take_append_of_le_length hle
      have hget : (a ++ [h] ++ b)[a.length]? = some h := by simp
      rw [if_pos hstop, hget, hdrop, htake]
      by_cases hmatch : equalsIgnoreCase h.name name = true
      · have herase : (a ++ [h] ++ b).eraseIdx a.length = a ++ b := by
          rw [append_assoc, eraseIdx_append_of_length_le le_rfl]
          simp
        simp only [Option.any_some, hmatch, if_true, herase, ih]
        simp [hmatch]
      · rw [Option.any_some, if_neg hmatch, append_assoc, ih]
        simp [hmatch]
    · have hlength : (a ++ [h]).length ≤ stop := by simp; omega
      rw [if_neg hstop, take_of_length_le hlength, drop_of_length_le hlength]
      simp

/-! ## The members -/

/-- The fields with a name, in their order. -/
def named (l : HeaderList) (name : Octets) : List Header :=
  l.headers.filter fun header => equalsIgnoreCase header.name name

/-- All other fields, in their order. -/
def others (l : HeaderList) (name : Octets) : List Header :=
  l.headers.filter fun header => !equalsIgnoreCase header.name name

theorem indexOf_eq_length : l.indexOf name = l.headers.length ↔
      ∀ header ∈ l.headers, equalsIgnoreCase header.name name = false := by
  rw [indexOf, findIdx_eq_length]

theorem indexOf_of_split {before after : List Header} {h : Header}
    (hl : l.headers = before ++ h :: after)
    (hbefore : ∀ x ∈ before, equalsIgnoreCase x.name name = false)
    (hmatch : equalsIgnoreCase h.name name = true) : l.indexOf name = before.length := by
  rw [indexOf, hl, findIdx_append]
  have hlength : (before.findIdx fun x => equalsIgnoreCase x.name name) = before.length :=
    findIdx_eq_length.mpr hbefore
  rw [if_neg (by rw [hlength]; exact lt_irrefl _)]
  simp [findIdx_cons, hmatch]

theorem append_of_valid (h : IsValid ⟨name, value⟩) :
    l.append name value = (⟨l.headers ++ [⟨name, value⟩]⟩, .ok ()) := by
  rw [append, validateHeader_of_valid h]

theorem append_set_of_not_valid (h : ¬IsValid ⟨name, value⟩) :
    ∃ e, l.append name value = (l, .error e) ∧ l.set name value = (l, .error e) := by
  obtain ⟨e, he⟩ := validateHeader_of_not_valid h
  exact ⟨e, by rw [append, he], by rw [set, he]⟩

theorem set_of_absent (h : IsValid ⟨name, value⟩)
    (habsent : ∀ header ∈ l.headers, equalsIgnoreCase header.name name = false) :
    l.set name value = (⟨l.headers ++ [⟨name, value⟩]⟩, .ok ()) := by
  rw [set, validateHeader_of_valid h]
  simp [indexOf_eq_length.mpr habsent]

theorem set_of_split (h : IsValid ⟨name, value⟩)
    {before after : List Header} {first : Header} (hl : l.headers = before ++ first :: after)
    (hbefore : ∀ x ∈ before, equalsIgnoreCase x.name name = false)
    (hmatch : equalsIgnoreCase first.name name = true) :
    l.set name value = (⟨before ++ ⟨name, value⟩ ::
      after.filter fun x => !equalsIgnoreCase x.name name⟩, .ok ()) := by
  have hpos := indexOf_of_split hl hbefore hmatch
  have hne : before.length ≠ l.headers.length := by simp [hl]
  have hset : l.headers.set before.length ⟨name, value⟩ = before ++ ⟨name, value⟩ :: after := by
    simp [hl]
  have hlength : l.headers.length = (before ++ ⟨name, value⟩ :: after).length := by simp [hl]
  have hloop := eraseMatching_append name (before.length + 1) (before ++ ⟨name, value⟩ :: after) []
  rw [append_nil, append_nil] at hloop
  simp only [set, validateHeader_of_valid h, hpos, if_neg hne, hset]
  have hkept : (before ++ [(⟨name, value⟩ : Header)]).length = before.length + 1 := by simp
  rw [hlength, hloop, append_cons before _ after, take_left' hkept,
    drop_left' hkept, ← append_cons]

theorem removeAll_eq (l : HeaderList) (name : Octets) :
    l.removeAll name = (⟨l.others name⟩, (l.named name).length) := by
  have hloop := eraseMatching_append name 0 l.headers []
  rw [append_nil, append_nil, take_zero, drop_zero, nil_append] at hloop
  have hcount := length_eq_length_filter_add (l := l.headers)
    fun header => equalsIgnoreCase header.name name
  simp only [removeAll, hloop, Prod.mk.injEq, named, others, true_and]
  omega

theorem count_eq (l : HeaderList) (name : Octets) : l.count name = (l.named name).length := by
  rw [count, named, ← foldl_filter, foldl_add_const, Nat.zero_add, Nat.one_mul]

theorem getAll_eq (l : HeaderList) (name : Octets) :
    l.getAll name = (l.named name).map Header.value := by
  rw [getAll, named, ← foldl_filter, foldl_append_eq_append, nil_append, ← flatMap_def,
    ← map_eq_flatMap]

/-- Either no field has the name, or the list splits at the first. -/
theorem first_cases (l : HeaderList) (name : Octets) :
    (∀ header ∈ l.headers, equalsIgnoreCase header.name name = false) ∨
      ∃ before first after, l.headers = before ++ first :: after ∧
        (∀ x ∈ before, equalsIgnoreCase x.name name = false) ∧
        equalsIgnoreCase first.name name = true := by
  by_cases h : ∀ header ∈ l.headers, equalsIgnoreCase header.name name = false
  · exact .inl h
  · push Not at h
    right
    obtain ⟨header, hheader, hmatch⟩ := h
    have hfind : (l.headers.find? fun x => equalsIgnoreCase x.name name).isSome := by
      rw [find?_isSome]
      exact ⟨header, hheader, by simpa using hmatch⟩
    obtain ⟨first, hfirst⟩ := Option.isSome_iff_exists.mp hfind
    obtain ⟨hp, before, after, heq, hbefore⟩ := find?_eq_some_iff_append.mp hfirst
    exact ⟨before, first, after, heq, by simpa using hbefore, hp⟩

theorem named_of_absent (h : ∀ header ∈ l.headers, equalsIgnoreCase header.name name = false) :
    l.named name = [] := by
  simpa [named, filter_eq_nil_iff] using h

theorem named_of_split {before after : List Header}
    {first : Header} (hl : l.headers = before ++ first :: after)
    (hbefore : ∀ x ∈ before, equalsIgnoreCase x.name name = false)
    (hmatch : equalsIgnoreCase first.name name = true) :
    l.named name = first :: after.filter fun x => equalsIgnoreCase x.name name := by
  have hnil : (before.filter fun x => equalsIgnoreCase x.name name) = [] := by
    simpa [filter_eq_nil_iff] using hbefore
  simp [named, hl, hnil, hmatch]

theorem tryGet_eq (l : HeaderList) (name : Octets) :
    l.tryGet name = (l.named name).head?.map Header.value := by
  rcases first_cases l name with h | ⟨before, first, after, hl, hbefore, hmatch⟩
  · simp [tryGet, indexOf_eq_length.mpr h, named_of_absent h]
  · have hne : before.length ≠ l.headers.length := by simp [hl]
    simp only [tryGet, indexOf_of_split hl hbefore hmatch, if_neg hne,
      named_of_split hl hbefore hmatch]
    simp [hl]

theorem has_eq_true : l.has name = true ↔ l.named name ≠ [] := by
  rcases first_cases l name with h | ⟨before, first, after, hl, hbefore, hmatch⟩
  · simp [has, indexOf_eq_length.mpr h, named_of_absent h]
  · rw [has, indexOf_of_split hl hbefore hmatch, named_of_split hl hbefore hmatch]
    simp [hl]

theorem set_named_others (h : IsValid ⟨name, value⟩) :
    (l.set name value).1.named name = [⟨name, value⟩] ∧
      (l.set name value).1.others name = l.others name ∧
      (l.set name value).1.indexOf name = l.indexOf name := by
  rcases first_cases l name with habsent | ⟨before, first, after, hl, hbefore, hmatch⟩
  · rw [set_of_absent h habsent, indexOf_eq_length.mpr habsent]
    have hnil := named_of_absent habsent
    refine ⟨?_, ?_, indexOf_of_split rfl habsent (equalsIgnoreCase_self name)⟩
    · simp only [named] at hnil ⊢
      simp [hnil]
    · simp [others]
  · rw [set_of_split h hl hbefore hmatch, indexOf_of_split hl hbefore hmatch]
    refine ⟨?_, ?_, indexOf_of_split rfl hbefore (equalsIgnoreCase_self name)⟩
    · rw [named_of_split rfl hbefore (equalsIgnoreCase_self name)]
      simp [filter_filter]
    · simp [others, hl, hmatch, filter_filter]

/-! ## Every list is valid -/

theorem append_valid (hl : ∀ h ∈ l.headers, IsValid h) (name value : Octets) :
    ∀ h ∈ (l.append name value).1.headers, IsValid h := by
  by_cases hvalid : IsValid ⟨name, value⟩
  · rw [append_of_valid hvalid]
    intro h hh
    rcases mem_append.mp hh with hh | hh
    · exact hl h hh
    · exact mem_singleton.mp hh ▸ hvalid
  · obtain ⟨e, he, -⟩ := append_set_of_not_valid (l := l) hvalid
    rwa [he]

theorem set_valid (hl : ∀ h ∈ l.headers, IsValid h) (name value : Octets) :
    ∀ h ∈ (l.set name value).1.headers, IsValid h := by
  by_cases hvalid : IsValid ⟨name, value⟩
  · rcases first_cases l name with habsent | ⟨before, first, after, heq, hbefore, hmatch⟩
    · rw [set_of_absent hvalid habsent, ← append_of_valid hvalid]
      exact append_valid hl name value
    · rw [set_of_split hvalid heq hbefore hmatch]
      intro h hh
      rcases mem_append.mp hh with hh | hh
      · exact hl h (heq ▸ mem_append_left _ hh)
      · rcases mem_cons.mp hh with rfl | hh
        · exact hvalid
        · have hafter := (mem_filter.mp hh).1
          exact hl h (heq ▸ mem_append_right _ (mem_cons_of_mem _ hafter))
  · obtain ⟨e, -, he⟩ := append_set_of_not_valid (l := l) hvalid
    rwa [he]

/-- All entries or none: the loop of `fromMap` appends them in their order. -/
theorem appendAll_eq (pairs : List (Octets × Octets)) (result : HeaderList) :
    if ∀ pair ∈ pairs, IsValid ⟨pair.1, pair.2⟩ then
      appendAll pairs result = .ok ⟨result.headers ++ pairs.map fun pair => ⟨pair.1, pair.2⟩⟩
    else ∃ e, appendAll pairs result = .error e := by
  induction pairs generalizing result with
  | nil => simp [appendAll]
  | cons pair pairs ih =>
    by_cases hvalid : IsValid ⟨pair.1, pair.2⟩
    · have hrest := ih ⟨result.headers ++ [⟨pair.1, pair.2⟩]⟩
      rw [appendAll, append_of_valid hvalid]
      simp only [forall_mem_cons, hvalid, true_and, map_cons]
      simpa only [append_assoc, singleton_append] using hrest
    · obtain ⟨e, he, -⟩ := append_set_of_not_valid (l := result) hvalid
      rw [appendAll, he]
      simp [hvalid]

theorem fromMap_of_valid {pairs : List (Octets × Octets)}
    (h : ∀ pair ∈ pairs, IsValid ⟨pair.1, pair.2⟩) :
    fromMap sort pairs = .ok ⟨sort (pairs.map fun pair => ⟨pair.1, pair.2⟩)⟩ := by
  have hloop := appendAll_eq pairs {}
  rw [if_pos h] at hloop
  rw [fromMap, hloop]
  rfl

theorem fromMap_of_not_valid (sort : List Header → List Header)
    {pairs : List (Octets × Octets)} (h : ¬∀ pair ∈ pairs, IsValid ⟨pair.1, pair.2⟩) :
    ∃ e, fromMap sort pairs = .error e := by
  have hloop := appendAll_eq pairs {}
  rw [if_neg h] at hloop
  obtain ⟨e, he⟩ := hloop
  exact ⟨e, by rw [fromMap, he]⟩

theorem fromMap_valid (hsort : IsHeaderSort sort) {pairs : List (Octets × Octets)}
    {result : HeaderList} (hresult : fromMap sort pairs = .ok result) :
    ∀ h ∈ result.headers, IsValid h := by
  by_cases hvalid : ∀ pair ∈ pairs, IsValid ⟨pair.1, pair.2⟩
  · rw [fromMap_of_valid hvalid] at hresult
    cases hresult
    intro h hh
    obtain ⟨pair, hpair, rfl⟩ := mem_map.mp ((hsort _).1.mem_iff.mp hh)
    exact hvalid pair hpair
  · obtain ⟨e, he⟩ := fromMap_of_not_valid sort hvalid
    rw [he] at hresult
    cases hresult

theorem step_valid (hsort : IsHeaderSort sort) (hl : ∀ h ∈ l.headers, IsValid h)
    (operation : Operation) : ∀ h ∈ (step sort l operation).headers, IsValid h := by
  cases operation with
  | append name value => exact append_valid hl name value
  | set name value => exact set_valid hl name value
  | removeAll name =>
    intro h hh
    rw [step, removeAll_eq] at hh
    exact hl h (mem_filter.mp hh).1
  | clear =>
    intro h hh
    cases hh
  | fromMap headers =>
    cases hresult : fromMap sort headers.entries with
    | error e =>
      rwa [step, hresult]
    | ok result =>
      rw [step, hresult]
      exact fromMap_valid hsort hresult

theorem Reached.valid (hsort : IsHeaderSort sort) (hl : Reached sort l) :
    ∀ h ∈ l.headers, IsValid h := by
  refine Transition.Reachable.invariant (P := fun l => ∀ h ∈ l.headers, IsValid h) ?_ ?_ hl
  · rintro l rfl h hh
    cases hh
  · intro l operation l' hl hstep
    cases hstep
    exact step_valid hsort hl operation

/-- What a stored field can bring into a message: a name of token characters,
and a value that neither breaks its line nor has outer white space. -/
structure WellFormed (header : Header) : Prop where
  name_ne_nil : header.name ≠ []
  name_token : ∀ ch ∈ header.name, isTokenChar ch = true
  value_noBreak : '\r'.toUInt8 ∉ header.value ∧ '\n'.toUInt8 ∉ header.value ∧ 0 ∉ header.value
  value_noOuterSpace : ∀ ch, header.value.head? = some ch ∨ header.value.getLast? = some ch →
    ch ≠ ' '.toUInt8 ∧ ch ≠ '\t'.toUInt8

theorem IsValid.wellFormed {header : Header} (h : IsValid header) : WellFormed header := by
  obtain ⟨hname, hvalue⟩ := h
  simp only [isValidHeaderName, Bool.and_eq_true, Bool.not_eq_true', isEmpty_eq_false_iff,
    all_eq_true] at hname
  simp only [isValidHeaderValue, hasLeadingOrTrailingWhitespace, Bool.and_eq_true,
    Bool.not_eq_true', all_eq_true, Bool.or_eq_false_iff] at hvalue
  obtain ⟨hchars, hhead, hlast⟩ := hvalue
  have habsent : ∀ ch : UInt8, (isFieldVChar ch || isSpaceOrTab ch) = false →
      ch ∉ header.value := by
    intro ch hch hmem
    have h := hchars ch hmem
    simp [hch] at h
  have hspace : ∀ ch, isSpaceOrTab ch = false → ch ≠ ' '.toUInt8 ∧ ch ≠ '\t'.toUInt8 := by
    intro ch hch
    simpa [isSpaceOrTab] using hch
  refine ⟨hname.1, hname.2, ⟨habsent _ (by decide), habsent _ (by decide), habsent _ (by decide)⟩,
    ?_⟩
  rintro ch (h | h)
  · rw [h] at hhead
    exact hspace ch hhead
  · rw [h] at hlast
    exact hspace ch hlast

/-- The list is an ordered multimap of valid fields, whatever was done to it. -/
theorem header_list_multimap (hsort : IsHeaderSort sort) {l : HeaderList}
    (hl : Reached sort l) :
    (∀ header ∈ l.headers, WellFormed header) ∧
    ∀ name value,
      (¬IsValid ⟨name, value⟩ →
        ∃ e, l.append name value = (l, .error e) ∧ l.set name value = (l, .error e)) ∧
      (IsValid ⟨name, value⟩ →
        l.append name value = (⟨l.headers ++ [⟨name, value⟩]⟩, .ok ()) ∧
        ((∀ x ∈ l.headers, equalsIgnoreCase x.name name = false) →
          l.set name value = (⟨l.headers ++ [⟨name, value⟩]⟩, .ok ())) ∧
        (∀ before first after, l.headers = before ++ first :: after →
          (∀ x ∈ before, equalsIgnoreCase x.name name = false) →
          equalsIgnoreCase first.name name = true →
          l.set name value = (⟨before ++ ⟨name, value⟩ ::
            after.filter fun x => !equalsIgnoreCase x.name name⟩, .ok ())) ∧
        (l.set name value).1.named name = [⟨name, value⟩] ∧
        (l.set name value).1.others name = l.others name ∧
        (l.set name value).1.indexOf name = l.indexOf name) ∧
      l.removeAll name = (⟨l.others name⟩, (l.named name).length) ∧
      l.count name = (l.named name).length ∧
      l.getAll name = (l.named name).map Header.value ∧
      l.tryGet name = (l.named name).head?.map Header.value := by
  refine ⟨fun header hheader => (hl.valid hsort header hheader).wellFormed, fun name value => ?_⟩
  refine ⟨append_set_of_not_valid, fun hvalid => ?_, removeAll_eq l name, count_eq l name,
    getAll_eq l name, tryGet_eq l name⟩
  exact ⟨append_of_valid hvalid, set_of_absent hvalid,
    fun before first after => set_of_split hvalid, set_named_others hvalid⟩

/-- A stable sort is one of the sorts. -/
def headerSort (headers : List Header) : List Header :=
  headers.mergeSort fun a b => headerKey a ≤ headerKey b

theorem isHeaderSort_headerSort : IsHeaderSort headerSort :=
  isHeaderSort_iff.mpr (isSort_mergeSort headerKey)

/-- Three fields, the second set again under another spelling. -/
theorem header_list_multimap_set :
    let l : HeaderList := ⟨[⟨octets "a", octets "1"⟩, ⟨octets "b", []⟩, ⟨octets "A", octets "3"⟩]⟩
    (l.set (octets "A") (octets "4")).1.headers
        = [⟨octets "A", octets "4"⟩, ⟨octets "b", []⟩] ∧
      (l.set (octets "A") (octets "4")).1.named (octets "A") = [⟨octets "A", octets "4"⟩] := by
  have hreached : Reached headerSort
      ⟨[⟨octets "a", octets "1"⟩, ⟨octets "b", []⟩, ⟨octets "A", octets "3"⟩]⟩ :=
    ⟨{}, [.append (octets "a") (octets "1"), .append (octets "b") [],
      .append (octets "A") (octets "3")], rfl, by decide⟩
  have h := header_list_multimap isHeaderSort_headerSort hreached
  exact ⟨by decide, ((h.2 _ _).2.1 (by decide)).2.2.2.1⟩

end Baselib.Http.HeaderList
