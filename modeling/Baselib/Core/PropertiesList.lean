/-
Baselib.Core.PropertiesList — properties written `name=value` and separated
by a character: `parsePropertiesList` of `core/StringUtils.h`.

A list is cut at every separator, and a name ends at the first equals sign.
Nothing is escaped, so not every map can be written as a list. When what was
written is read back as it was is settled by lengths (`parsePropertiesList_iff`):
a property which was read is no longer than its piece, so if the map which was
read is as long as the text then nothing was trimmed, skipped or cut elsewhere.

A map is the list of its entries in the order of insertion.
-/
import Mathlib.Algebra.GroupWithZero.Nat
import Baselib.Core.StringUtils

namespace Baselib.Core.Str

open Lib List

abbrev Properties := List (Octets × Octets)

def Properties.value (properties : Properties) (name : Octets) : Option Octets :=
  (properties.find? fun pair => pair.1 = name).map Prod.snd

/-- `emplace`, which keeps the property there is. -/
def Properties.emplace (properties : Properties) (name value : Octets) : Properties :=
  if name ∈ properties.map Prod.fst then properties else properties ++ [(name, value)]

/-- `InvalidDataFormatException` with its message. -/
inductive PropertiesException where
  | invalidDataFormat (message : Octets)
  deriving DecidableEq, Repr

def equalsSign : UInt8 := '='.toUInt8

def cannotParse : PropertiesException :=
  .invalidDataFormat (octets "Cannot parse property in 'name=value' format")

def duplicateProperty (name : Octets) : PropertiesException :=
  .invalidDataFormat (octets "Duplicate property " ++ quoteString name ++
    octets " encountered while parsing concatenated properties in 'name=value' format")

def parseProperty (property : Octets) : Except PropertiesException (Octets × Octets) :=
  match find property equalsSign 0 with
  | none => .error cannotParse
  | some pos =>
    if pos = 0 then .error cannotParse else .ok (property.take pos, property.drop (pos + 1))

/-- One turn of the loop. -/
def addProperty (result : Properties) (property : Octets) :
    Except PropertiesException Properties :=
  let property := trim property
  if property = [] then .ok result
  else
    match parseProperty property with
    | .error e => .error e
    | .ok pair =>
      if pair.1 ∈ result.map Prod.fst then .error (duplicateProperty pair.1)
      else .ok (result ++ [pair])

def parsePropertiesList (properties : Octets) (separator : UInt8 := ';'.toUInt8) :
    Except PropertiesException Properties :=
  (properties.splitOn separator).foldlM addProperty []

theorem Properties.nodup_emplace {properties : Properties} {name value : Octets}
    (h : (properties.map Prod.fst).Nodup) : ((properties.emplace name value).map Prod.fst).Nodup := by
  rw [Properties.emplace]
  split
  · exact h
  next hfresh =>
    rw [map_append]
    refine nodup_append.mpr ⟨h, nodup_singleton _, fun a ha b hb heq => ?_⟩
    rw [mem_singleton.mp hb] at heq
    rw [heq] at ha
    exact hfresh ha

theorem Properties.mem_emplace {properties : Properties} {name value : Octets}
    {pair : Octets × Octets} (h : pair ∈ properties.emplace name value) :
    pair ∈ properties ∨ pair = (name, value) := by
  rw [Properties.emplace] at h
  split at h
  · exact .inl h
  · exact (mem_append.mp h).imp_right mem_singleton.mp

/-! ## Writing a map -/

/-- A property as it is written. -/
def entryText (pair : Octets × Octets) : Octets := pair.1 ++ equalsSign :: pair.2

def joinProperties (separator : UInt8) (properties : Properties) : Octets :=
  [separator].intercalate (properties.map entryText)

/-- A property which is read back from what is written of it. -/
structure Plain (separator : UInt8) (pair : Octets × Octets) : Prop where
  name_ne_nil : pair.1 ≠ []
  equalsSign_name : equalsSign ∉ pair.1
  separator_name : separator ∉ pair.1
  separator_value : separator ∉ pair.2
  name_begins : ∀ ch ∈ pair.1.head?, isSpace ch = false
  value_ends : ∀ ch ∈ pair.2.getLast?, isSpace ch = false

instance (separator : UInt8) (pair : Octets × Octets) : Decidable (Plain separator pair) :=
  decidable_of_iff
    (pair.1 ≠ [] ∧ equalsSign ∉ pair.1 ∧ separator ∉ pair.1 ∧ separator ∉ pair.2 ∧
      (∀ ch ∈ pair.1.head?, isSpace ch = false) ∧ ∀ ch ∈ pair.2.getLast?, isSpace ch = false)
    ⟨fun ⟨h₁, h₂, h₃, h₄, h₅, h₆⟩ => ⟨h₁, h₂, h₃, h₄, h₅, h₆⟩,
      fun ⟨h₁, h₂, h₃, h₄, h₅, h₆⟩ => ⟨h₁, h₂, h₃, h₄, h₅, h₆⟩⟩

variable {separator : UInt8} {pair : Octets × Octets} {properties result : Properties}
  {pieces : List Octets}

theorem trim_eq_self_iff {text : Octets} :
    trim text = text ↔ (∀ ch ∈ text.head?, isSpace ch = false) ∧
      ∀ ch ∈ text.getLast?, isSpace ch = false := by
  have hfront : text.dropWhile isSpace = text ↔ ∀ ch ∈ text.head?, isSpace ch = false := by
    cases text with
    | nil => simp
    | cons ch rest => simp [dropWhile_eq_self_iff]
  have hback : text.rdropWhile isSpace = text ↔ ∀ ch ∈ text.getLast?, isSpace ch = false := by
    rw [rdropWhile_eq_self_iff]
    constructor
    · intro h ch hch
      obtain ⟨hne, rfl⟩ := mem_getLast?_eq_getLast hch
      exact Bool.eq_false_iff.mpr (h hne)
    · intro h hne
      exact Bool.eq_false_iff.mp (h _ (getLast?_eq_some_getLast hne))
  rw [← hfront, ← hback]
  constructor
  · intro htrim
    have hprefix := rdropWhile_prefix isSpace (text.dropWhile isSpace)
    have hsuffix := dropWhile_suffix isSpace (l := text)
    have hle := hprefix.length_le
    rw [← trim, htrim] at hle
    have hdrop := hsuffix.eq_of_length (Nat.le_antisymm hsuffix.length_le hle)
    rw [trim, hdrop] at htrim
    exact ⟨hdrop, htrim⟩
  · rintro ⟨hdrop, hrdrop⟩
    rw [trim, hdrop, hrdrop]

theorem length_trim_le (text : Octets) : (trim text).length ≤ text.length :=
  Nat.le_trans (List.rdropWhile_prefix isSpace _).length_le
    (dropWhile_suffix isSpace).length_le

theorem trim_eq_self_of_length {text : Octets} (h : (trim text).length = text.length) :
    trim text = text := by
  obtain ⟨l, r, htext, -, -⟩ := trim_split text
  have hlength := congrArg List.length htext
  simp only [length_append] at hlength
  obtain rfl : l = [] := length_eq_zero_iff.mp (by omega)
  obtain rfl : r = [] := length_eq_zero_iff.mp (by omega)
  rw [nil_append, append_nil] at htext
  exact htext.symm

theorem entryText_ne_nil (pair : Octets × Octets) : entryText pair ≠ [] :=
  append_ne_nil_of_right_ne_nil _ (cons_ne_nil _ _)

theorem trim_entryText_iff (hname : pair.1 ≠ []) :
    trim (entryText pair) = entryText pair ↔ (∀ ch ∈ pair.1.head?, isSpace ch = false) ∧
      ∀ ch ∈ pair.2.getLast?, isSpace ch = false := by
  have hhead : (entryText pair).head? = pair.1.head? := head?_append_of_ne_nil _ hname
  rw [trim_eq_self_iff, hhead, entryText, getLast?_append, getLast?_cons]
  cases hvalue : pair.2.getLast? with
  | none =>
    have hequals : isSpace equalsSign = false := by decide
    simp [hequals]
  | some ch => simp

/-! ## Reading one property -/

theorem parseProperty_eq_ok {property : Octets} :
    parseProperty property = .ok pair ↔
      property = entryText pair ∧ pair.1 ≠ [] ∧ equalsSign ∉ pair.1 := by
  unfold parseProperty
  rcases find_cases property equalsSign with ⟨hmem, hfind⟩ | ⟨name, value, rfl, hname, hfind⟩
  · rw [hfind]
    constructor
    · nofun
    · rintro ⟨rfl, -, -⟩
      exact absurd (mem_append_right _ mem_cons_self) hmem
  · have htake : (name ++ equalsSign :: value).take name.length = name := take_left
    have hdrop : (name ++ equalsSign :: value).drop (name.length + 1) = value := by
      rw [← drop_drop, drop_left]
      rfl
    rw [hfind]
    dsimp only
    rw [htake, hdrop]
    constructor
    · intro h
      split at h
      · cases h
      · cases h
        exact ⟨rfl, ne_nil_of_length_pos (Nat.pos_of_ne_zero ‹_›), hname⟩
    · rintro ⟨heq, hne, hmem⟩
      obtain ⟨rfl, rfl⟩ := (append_cons_inj hname hmem).mp heq
      rw [if_neg (fun hzero => hne (length_eq_zero_iff.mp hzero))]

theorem addProperty_eq_ok {property : Octets} {result' : Properties} :
    addProperty result property = .ok result' ↔
      (trim property = [] ∧ result' = result) ∨
      ∃ pair, trim property = entryText pair ∧ pair.1 ≠ [] ∧ equalsSign ∉ pair.1 ∧
        pair.1 ∉ result.map Prod.fst ∧ result' = result ++ [pair] := by
  unfold addProperty
  by_cases hblank : trim property = []
  · rw [if_pos hblank]
    constructor
    · intro h
      cases h
      exact .inl ⟨hblank, rfl⟩
    · rintro (⟨-, rfl⟩ | ⟨pair, hentry, -⟩)
      · rfl
      · exact absurd (hentry.symm.trans hblank) (entryText_ne_nil pair)
  · rw [if_neg hblank]
    constructor
    · intro h
      split at h
      next => cases h
      next pair hparse =>
        split at h
        · cases h
        next hfresh =>
          cases h
          obtain ⟨hentry, hne, hmem⟩ := parseProperty_eq_ok.mp hparse
          exact .inr ⟨pair, hentry, hne, hmem, hfresh, rfl⟩
    · rintro (⟨h, -⟩ | ⟨pair, hentry, hne, hmem, hfresh, rfl⟩)
      · exact absurd h hblank
      · rw [parseProperty_eq_ok.mpr ⟨hentry, hne, hmem⟩]
        exact if_neg hfresh

/-! ## Reading a list -/

/-- The length of the pieces, each with a separator. -/
def weight (pieces : List Octets) : Nat := (pieces.map fun piece => piece.length + 1).sum

@[simp] theorem weight_nil : weight [] = 0 := rfl

@[simp] theorem weight_cons (piece : Octets) (pieces : List Octets) :
    weight (piece :: pieces) = piece.length + 1 + weight pieces := rfl

/-- What was read takes up no more than the pieces, and if it takes up as much
the pieces are what is written of it. -/
theorem foldlM_addProperty : ∀ {pieces : List Octets} {result result' : Properties},
    pieces.foldlM addProperty result = .ok result' →
    ∃ added, result' = result ++ added ∧ weight (added.map entryText) ≤ weight pieces ∧
      (weight (added.map entryText) = weight pieces → pieces = added.map entryText ∧
        ∀ pair ∈ added, pair.1 ≠ [] ∧ equalsSign ∉ pair.1 ∧
          trim (entryText pair) = entryText pair)
  | [], result, result', h => by
      cases h
      exact ⟨[], (append_nil result).symm, Nat.le_refl _,
        fun _ => ⟨rfl, fun _ hmem => absurd hmem not_mem_nil⟩⟩
  | piece :: pieces, result, result', h => by
      rw [foldlM_cons] at h
      cases hadd : addProperty result piece with
      | error e =>
        rw [hadd] at h
        cases h
      | ok next =>
        rw [hadd] at h
        obtain ⟨added, rfl, hle, heq⟩ := foldlM_addProperty h
        rcases addProperty_eq_ok.mp hadd with ⟨-, rfl⟩ | ⟨pair, htrim, hne, hmem, -, rfl⟩
        · refine ⟨added, rfl, ?_, fun hweight => ?_⟩
          · rw [weight_cons]
            omega
          · rw [weight_cons] at hweight
            omega
        · have hlength := length_trim_le piece
          rw [htrim] at hlength
          refine ⟨pair :: added, (append_cons result pair added).symm, ?_,
            fun hweight => ?_⟩
          · rw [map_cons, weight_cons, weight_cons]
            omega
          · rw [map_cons, weight_cons, weight_cons] at hweight
            obtain ⟨rfl, hplain⟩ := heq (by omega)
            have hself : trim piece = piece := trim_eq_self_of_length (by rw [htrim]; omega)
            have hpiece : piece = entryText pair := hself.symm.trans htrim
            refine ⟨by rw [map_cons, hpiece], forall_mem_cons.mpr ⟨?_, hplain⟩⟩
            exact ⟨hne, hmem, hpiece ▸ hself⟩

/-- Properties which are written plainly are read one by one. -/
theorem foldlM_addProperty_plain : ∀ {properties result : Properties},
    (result ++ properties).map Prod.fst |>.Nodup →
    (∀ pair ∈ properties, Plain separator pair) →
    (properties.map entryText).foldlM addProperty result = .ok (result ++ properties)
  | [], result, _, _ => by
      rw [append_nil]
      rfl
  | pair :: properties, result, hnodup, hplain => by
      obtain ⟨hpair, hrest⟩ := forall_mem_cons.mp hplain
      have hfresh : pair.1 ∉ result.map Prod.fst := by
        rw [map_append, map_cons] at hnodup
        intro hmem
        exact (nodup_append.mp hnodup).2.2 _ hmem _ mem_cons_self rfl
      have htrim := (trim_entryText_iff hpair.name_ne_nil).mpr
        ⟨hpair.name_begins, hpair.value_ends⟩
      have hadd : addProperty result (entryText pair) = .ok (result ++ [pair]) :=
        addProperty_eq_ok.mpr
          (.inr ⟨pair, htrim, hpair.name_ne_nil, hpair.equalsSign_name, hfresh, rfl⟩)
      rw [append_cons] at hnodup ⊢
      rw [map_cons, foldlM_cons, hadd]
      exact foldlM_addProperty_plain hnodup hrest

/-! ## Reading what was written -/

theorem length_intercalate (separator : UInt8) : ∀ {pieces : List Octets}, pieces ≠ [] →
    ([separator].intercalate pieces).length + 1 = weight pieces
  | [piece], _ => by simp
  | piece :: next :: pieces, _ => by
      have ih := length_intercalate separator (cons_ne_nil next pieces)
      rw [intercalate_cons_cons, weight_cons, ← ih]
      simp only [length_append, length_singleton]
      omega

theorem count_intercalate (separator : UInt8) : ∀ {pieces : List Octets}, pieces ≠ [] →
    ([separator].intercalate pieces).count separator + 1 =
      (pieces.map (List.count separator)).sum + pieces.length
  | [piece], _ => by simp
  | piece :: next :: pieces, _ => by
      have ih := count_intercalate separator (cons_ne_nil next pieces)
      rw [intercalate_cons_cons, map_cons, sum_cons, length_cons]
      simp only [count_append, count_singleton_self]
      omega

/-- Two maps which are written alike, one of which has no equals sign in its
names: its names are the shorter ones. -/
theorem eq_of_map_entryText : ∀ {properties properties' : Properties},
    properties.map entryText = properties'.map entryText →
    (∀ pair ∈ properties, equalsSign ∉ pair.1) →
    (properties.map fun pair => pair.1.length).sum ≤
        (properties'.map fun pair => pair.1.length).sum ∧
      ((properties.map fun pair => pair.1.length).sum =
        (properties'.map fun pair => pair.1.length).sum → properties = properties')
  | [], [], _, _ => ⟨Nat.le_refl _, fun _ => rfl⟩
  | [], _ :: _, h, _ => by cases h
  | _ :: _, [], h, _ => by cases h
  | pair :: properties, pair' :: properties', h, hnames => by
      obtain ⟨hentry, hrest⟩ := List.cons.inj h
      obtain ⟨hname, hnames⟩ := forall_mem_cons.mp hnames
      obtain ⟨hle, heq⟩ := eq_of_map_entryText hrest hnames
      have hlength : pair.1.length ≤ pair'.1.length ∧
          (pair.1.length = pair'.1.length → pair = pair') := by
        have hprefix : pair.1 <+: entryText pair' := hentry ▸ prefix_append _ _
        have hprefix' : pair'.1 <+: entryText pair' := prefix_append _ _
        rcases Nat.le_total pair.1.length pair'.1.length with hlen | hlen
        · refine ⟨hlen, fun hsame => ?_⟩
          obtain ⟨hfst, hsnd⟩ := append_inj hentry hsame
          exact Prod.ext hfst (List.cons.inj hsnd).2
        · rcases Nat.eq_or_lt_of_le hlen with hsame | hlt
          · refine ⟨Nat.le_of_eq hsame.symm, fun _ => ?_⟩
            obtain ⟨hfst, hsnd⟩ := append_inj hentry hsame.symm
            exact Prod.ext hfst (List.cons.inj hsnd).2
          -- the name would go on past the equals sign of the other one
          · obtain ⟨rest, hrest'⟩ := prefix_of_prefix_length_le hprefix' hprefix hlen
            have hmem : equalsSign ∈ pair.1 := by
              have hdrop := hentry
              rw [entryText, entryText, ← hrest', append_assoc,
                append_cancel_left_eq] at hdrop
              cases rest with
              | nil =>
                rw [append_nil] at hrest'
                rw [hrest'] at hlt
                exact absurd hlt (Nat.lt_irrefl _)
              | cons ch rest =>
                rw [← hrest', (List.cons.inj hdrop).1]
                exact mem_append_right _ mem_cons_self
            exact absurd hmem hname
      simp only [map_cons, sum_cons]
      refine ⟨by omega, fun hsum => ?_⟩
      rw [hlength.2 (by omega), heq (by omega)]

theorem not_mem_entryText (hequals : separator ≠ equalsSign) :
    separator ∉ entryText pair ↔ separator ∉ pair.1 ∧ separator ∉ pair.2 := by
  rw [entryText, mem_append, mem_cons, not_or, not_or]
  exact and_congr_right fun _ => and_iff_right hequals

/-- A map is read back from what was written of it exactly when each of its
properties is plain, in whatever order they were written. -/
theorem parsePropertiesList_iff (hne : properties ≠ []) (hnodup : (properties.map Prod.fst).Nodup)
    (hequals : separator ≠ equalsSign) :
    (∃ m, parsePropertiesList (joinProperties separator properties) separator = .ok m ∧
        m.Perm properties) ↔
      ∀ pair ∈ properties, Plain separator pair := by
  have hpieces : properties.map entryText ≠ [] := by simpa using hne
  constructor
  · rintro ⟨m, hparse, hperm⟩
    obtain ⟨added, hadded, -, hread⟩ := foldlM_addProperty hparse
    rw [nil_append] at hadded
    subst hadded
    have hweight : weight (m.map entryText) =
        weight ((joinProperties separator properties).splitOn separator) := by
      rw [← length_intercalate separator (splitOn_ne_nil separator _),
        intercalate_splitOn, joinProperties, length_intercalate separator hpieces]
      exact ((hperm.map entryText).map fun piece => piece.length + 1).sum_eq
    obtain ⟨hsplit, hplain⟩ := hread hweight
    -- there are no separators but those between the properties
    have hcount := count_intercalate separator hpieces
    have hcount' := count_intercalate separator
      (splitOn_ne_nil separator (joinProperties separator properties))
    have hnone : ((m.map entryText).map (List.count separator)).sum = 0 := by
      rw [List.sum_eq_zero_iff_forall_eq_nat]
      intro n hn
      obtain ⟨piece, hpiece, rfl⟩ := mem_map.mp hn
      rw [← hsplit] at hpiece
      exact count_eq_zero.mpr (not_mem_of_mem_splitOn hpiece)
    rw [intercalate_splitOn, hsplit, hnone, length_map, hperm.length_eq] at hcount'
    rw [← joinProperties, length_map] at hcount
    have hseparator : ∀ pair ∈ properties, separator ∉ entryText pair := by
      intro pair hpair
      have hsum : ((properties.map entryText).map (List.count separator)).sum = 0 := by omega
      rw [List.sum_eq_zero_iff_forall_eq_nat] at hsum
      exact count_eq_zero.mp
        (hsum _ (mem_map_of_mem (mem_map_of_mem hpair)))
    have hsame : m.map entryText = properties.map entryText := by
      rw [← hsplit, joinProperties, splitOn_intercalate separator _ hpieces]
      intro piece hpiece
      obtain ⟨pair, hpair, rfl⟩ := mem_map.mp hpiece
      exact hseparator pair hpair
    obtain rfl := (eq_of_map_entryText hsame fun pair hpair => (hplain pair hpair).2.1).2
      (hperm.map fun pair => pair.1.length).sum_eq
    intro pair hpair
    obtain ⟨hname, hmem, htrim⟩ := hplain pair hpair
    obtain ⟨hbegins, hends⟩ := (trim_entryText_iff hname).mp htrim
    obtain ⟨hsepname, hsepvalue⟩ := (not_mem_entryText hequals).mp (hseparator pair hpair)
    exact ⟨hname, hmem, hsepname, hsepvalue, hbegins, hends⟩
  · intro hplain
    refine ⟨properties, ?_, List.Perm.refl _⟩
    rw [parsePropertiesList, joinProperties, splitOn_intercalate separator _ hpieces]
    · exact foldlM_addProperty_plain hnodup hplain
    · intro piece hpiece
      obtain ⟨pair, hpair, rfl⟩ := mem_map.mp hpiece
      have hpair := hplain pair hpair
      exact (not_mem_entryText hequals).mpr ⟨hpair.separator_name, hpair.separator_value⟩

end Baselib.Core.Str
