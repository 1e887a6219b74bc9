/-
Baselib.Data.DataModelObjectTheorems — what an object is saved as is loaded as
the same object.

Every kind of property has one lemma: the value it is saved as, if any, is not
null, and is loaded as the same member. A class whose properties have distinct
names finds each value where it was put, and the unmapped members under the
other names.
-/
import Baselib.Data.DataModelObject
import Baselib.Lib.Checked

namespace Baselib.Data.DataModelObject

open Lib Lib.Checked List
open Json (Value Error ScalarType ItemType Backend stringTo)

variable {δ : Type} {b : Backend δ} {jsonProp : String}

/-! ## What each kind is saved as is read back -/

/-- What a member is saved as, if anything, is not null, and is read as the
same member. -/
def ReadsBack {M : Type} (same : M → M → Prop) (initial m : M)
    (saved : Except Error (Option (Value δ))) (jsonProp : String)
    (deserialize : Json.Members δ → M → Except Error (M × Bool)) : Prop :=
  ∀ value, saved = .ok value → (∀ v ∈ value, v.isNull = false) ∧
    ∀ map, Json.Members.present map jsonProp = value →
      ∃ m', deserialize map initial = .ok (m', value.isSome) ∧ same m m'

theorem scalar_readsBack {name : String} {type : ScalarType} {isRequired : Bool}
    {m : ScalarMember (type.Carrier δ)} (hm : m.isSet = false → m.value = type.default b) :
    ReadsBack Eq ⟨type.default b, false⟩ m (scalarSerialize false name type isRequired m) jsonProp
      fun map m => scalarDeserialize b jsonProp map name type isRequired m := by
  intro value hvalue
  obtain ⟨value', isSet⟩ := m
  cases isSet with
  | true =>
    obtain rfl : some (type.toValue value') = value := Except.ok.inj hvalue
    refine ⟨fun v hv => ?_, fun map hmap => ⟨⟨value', true⟩, ?_, rfl⟩⟩
    · cases hv
      exact type.toValue_isNull value'
    · simp only [scalarDeserialize, hmap]
      exact bind_eq_ok.mpr ⟨value', type.valueTo_toValue b value', rfl⟩
  | false =>
    cases isRequired with
    | true => cases hvalue
    | false =>
      obtain rfl : none = value := Except.ok.inj hvalue
      refine ⟨fun v hv => (by cases hv), fun map hmap => ⟨⟨value', false⟩, ?_, rfl⟩⟩
      obtain rfl : value' = type.default b := hm rfl
      simp only [scalarDeserialize, hmap]
      rfl

theorem string_readsBack {name : String} {isRequired : Bool} {m : String} :
    ReadsBack (δ := δ) Eq "" m (stringSerialize false name isRequired m) jsonProp
      fun map m => stringDeserialize jsonProp map name isRequired m := by
  intro value hvalue
  rw [stringSerialize] at hvalue
  by_cases hm : m = ""
  · subst hm
    cases isRequired with
    | true => cases hvalue
    | false =>
      obtain rfl : none = value := Except.ok.inj hvalue
      refine ⟨fun v hv => (by cases hv), fun map hmap => ⟨"", ?_, rfl⟩⟩
      simp only [stringDeserialize, hmap]
      rfl
  · have hempty : (m == "") = false := beq_eq_false_iff_ne.mpr hm
    rw [bne, hempty] at hvalue
    obtain rfl : some (.string m) = value := Except.ok.inj hvalue
    refine ⟨fun v hv => ?_, fun map hmap => ⟨m, ?_, rfl⟩⟩
    · cases hv
      rfl
    · simp only [stringDeserialize, hmap]
      refine bind_eq_ok.mpr ⟨m, rfl, ?_⟩
      rw [hempty, Bool.and_false]
      rfl

/-- The other kinds are as they were created, or are saved. -/
theorem readsBack_present {M : Type} {same : M → M → Prop} {initial m : M}
    {saved : Except Error (Option (Value δ))} {read : Value δ → Except Error M}
    (hnone : saved = .ok none → same m initial)
    (hsome : ∀ v, saved = .ok (some v) → v.isNull = false ∧ ∃ m', read v = .ok m' ∧ same m m') :
    ReadsBack same initial m saved jsonProp fun map m => deserializePresent jsonProp map read m := by
  intro value hvalue
  cases value with
  | none =>
    refine ⟨fun v hv => (by cases hv), fun map hmap => ⟨initial, ?_, hnone hvalue⟩⟩
    simp only [deserializePresent, hmap]
    rfl
  | some v =>
    obtain ⟨hnull, m', hread, hsame⟩ := hsome v hvalue
    refine ⟨fun w hw => ?_, fun map hmap => ⟨m', ?_, hsame⟩⟩
    · cases hw
      exact hnull
    · simp only [deserializePresent, hmap]
      exact bind_eq_ok.mpr ⟨m', hread, rfl⟩

theorem simpleContainerRead_array {C : Type} (type : ItemType) (empty : C)
    (inserter : C → type.Carrier δ → C) (items : List (type.Carrier δ)) :
    simpleContainerRead b type empty inserter (.array (items.map type.toValue)) =
      .ok (items.foldl inserter empty) := by
  refine bind_eq_ok.mpr ⟨items.map type.toValue, rfl, bind_eq_ok.mpr ⟨items, ?_, rfl⟩⟩
  rw [mapM_eq_ok, forall₂_map_left_iff]
  exact forall₂_same.mpr fun item _ => type.itemTo_toValue b item

theorem simpleVector_readsBack {type : ItemType} {m : List (type.Carrier δ)} :
    ReadsBack Eq [] m (simpleContainerSerialize false type m) jsonProp fun map m =>
      deserializePresent jsonProp map
        (simpleContainerRead b type [] fun temp item => temp ++ [item]) m := by
  refine readsBack_present (fun hsaved => ?_) fun v hsaved => ?_
  · cases m with
    | nil => rfl
    | cons item m => cases hsaved
  · cases m with
    | nil => cases hsaved
    | cons item m =>
      obtain rfl := Option.some.inj (Except.ok.inj hsaved)
      refine ⟨rfl, _, simpleContainerRead_array type _ _ _, ?_⟩
      rw [foldl_append_eq_append, nil_append]
      exact (flatMap_singleton' _).symm

theorem stringOrArray_readsBack {m : List String} :
    ReadsBack (δ := δ) Eq [] m (stringOrArraySerialize false m) jsonProp fun map m =>
      deserializePresent jsonProp map stringOrArrayRead m := by
  refine readsBack_present (fun hsaved => ?_) fun v hsaved => ?_
  · match m with
    | [] => rfl
    | [item] => cases hsaved
    | item :: item' :: m => cases hsaved
  · match m with
    | [] => cases hsaved
    | [item] =>
      obtain rfl := Option.some.inj (Except.ok.inj hsaved)
      exact ⟨rfl, [item], rfl, rfl⟩
    | item :: item' :: m =>
      obtain rfl := Option.some.inj (Except.ok.inj hsaved)
      refine ⟨rfl, item :: item' :: m, bind_eq_ok.mpr ⟨_, rfl, ?_⟩, rfl⟩
      rw [mapM_eq_ok, forall₂_map_left_iff]
      exact forall₂_same.mpr fun _ _ => rfl

theorem custom_readsBack {m : Value δ} :
    ReadsBack Eq .null m (customSerialize false m) jsonProp fun map m =>
      deserializePresent jsonProp map Except.ok m := by
  refine readsBack_present (fun hsaved => ?_) fun v hsaved => ?_
  · cases m with
    | null => rfl
    | _ => cases hsaved
  · cases hnull : m.isNull with
    | true =>
      rw [customSerialize, hnull] at hsaved
      cases hsaved
    | false =>
      rw [customSerialize, hnull] at hsaved
      obtain rfl := Option.some.inj (Except.ok.inj hsaved)
      exact ⟨hnull, m, rfl, rfl⟩

theorem emplaceAll_of_sorted {κ ν μ : Type} [LinearOrder κ] {m : SortedMap κ μ}
    {entries : List (κ × ν)} (h : entries.map Prod.fst = m.keys) :
    AssocList.emplaceAll [] entries = entries := by
  refine AssocList.emplaceAll_eq_append ?_
  rw [nil_append, h]
  exact pairwise_map.mpr (m.sorted.imp ne_of_lt)

theorem map_readsBack {type : ItemType} {m : SortedMap String (type.Carrier δ)} :
    ReadsBack Eq SortedMap.empty m (mapSerialize false type m) jsonProp fun map m =>
      deserializePresent jsonProp map (mapRead b type) m := by
  refine readsBack_present (fun hsaved => ?_) fun v hsaved => ?_
  · rw [mapSerialize] at hsaved
    cases hentries : m.entries with
    | nil => exact SortedMap.ext_of_perm (.of_eq hentries)
    | cons e entries =>
      simp [hentries] at hsaved
  · have hv : v = .object (m.entries.map fun e => (e.1, type.toValue e.2)) := by
      rw [mapSerialize, emplaceAll_of_sorted (m := m) (by rw [List.map_map]; rfl)] at hsaved
      split at hsaved
      · cases hsaved
      · exact (Option.some.inj (Except.ok.inj hsaved)).symm
    subst hv
    refine ⟨rfl, m, bind_eq_ok.mpr ⟨_, rfl, bind_eq_ok.mpr ⟨m.entries, ?_, ?_⟩⟩, rfl⟩
    · rw [mapM_eq_ok, forall₂_map_left_iff]
      refine forall₂_same.mpr fun e _ => bind_eq_ok.mpr ⟨e.2, ?_, rfl⟩
      exact type.valueTo_toValue b e.2
    · exact congrArg Except.ok m.foldl_assign_self

/-! ### Kinds whose members are objects -/

section

variable {Fields : Type} {wf : Object Fields δ → Prop} {same : Object Fields δ → Object Fields δ → Prop}
  {save : Object Fields δ → Except Error (Json.Members δ)}
  {load : Json.Members δ → Except Error (Object Fields δ)} {jsonProp : String}

theorem complex_readsBack (h : ∀ o, wf o → ∀ doc, save o = .ok doc →
      ∃ o', load doc = .ok o' ∧ same o o') {m : Option (Object Fields δ)} (hm : ∀ o ∈ m, wf o) :
    ReadsBack (Option.Rel same) none m (complexSerialize false save m) jsonProp fun map m =>
      deserializePresent jsonProp map (complexRead load) m := by
  refine readsBack_present (fun hsaved => ?_) fun v hsaved => ?_
  · cases m with
    | none => exact .none
    | some o =>
      obtain ⟨doc, -, hdoc⟩ := bind_eq_ok.mp hsaved
      cases hdoc
  · cases m with
    | none => cases hsaved
    | some o =>
      obtain ⟨doc, hsave, hdoc⟩ := bind_eq_ok.mp hsaved
      obtain rfl := Option.some.inj (Except.ok.inj hdoc)
      obtain ⟨o', hload, hsame⟩ := h o (hm o rfl) doc hsave
      exact ⟨rfl, some o', bind_eq_ok.mpr ⟨doc, rfl, bind_eq_ok.mpr ⟨o', hload, rfl⟩⟩, .some hsame⟩

theorem complexVector_readsBack (h : ∀ o, wf o → ∀ doc, save o = .ok doc →
      ∃ o', load doc = .ok o' ∧ same o o') {m : List (Object Fields δ)} (hm : ∀ o ∈ m, wf o) :
    ReadsBack (List.Forall₂ same) [] m (complexVectorSerialize false save m) jsonProp fun map m =>
      deserializePresent jsonProp map (complexVectorRead load) m := by
  refine readsBack_present (fun hsaved => ?_) fun v hsaved => ?_
  · cases m with
    | nil => exact .nil
    | cons o m =>
      obtain ⟨docs, -, hdocs⟩ := bind_eq_ok.mp hsaved
      cases hdocs
  · cases m with
    | nil => cases hsaved
    | cons o m =>
      obtain ⟨docs, hsave, hdocs⟩ := bind_eq_ok.mp hsaved
      obtain rfl := Option.some.inj (Except.ok.inj hdocs)
      obtain ⟨m', hload, hsame⟩ := forall₂_exists (mapM_eq_ok.mp hsave) fun o ho doc hdoc =>
        h o (hm o ho) doc hdoc
      refine ⟨rfl, m', bind_eq_ok.mpr ⟨_, rfl, ?_⟩, hsame⟩
      rw [mapM_eq_ok, forall₂_map_left_iff]
      exact hload.imp fun doc o' hdoc => bind_eq_ok.mpr ⟨doc, rfl, hdoc⟩

theorem complexMap_readsBack (h : ∀ o, wf o → ∀ doc, save o = .ok doc →
      ∃ o', load doc = .ok o' ∧ same o o') {m : SortedMap String (Object Fields δ)}
    (hm : ∀ e ∈ m.entries, wf e.2) :
    ReadsBack (fun m m' : SortedMap String (Object Fields δ) =>
        List.Forall₂ (fun e e' => e'.1 = e.1 ∧ same e.2 e'.2) m.entries m'.entries)
      SortedMap.empty m (complexMapSerialize false save m) jsonProp fun map m =>
      deserializePresent jsonProp map (complexMapRead load) m := by
  refine readsBack_present (fun hsaved => ?_) fun v hsaved => ?_
  · rw [complexMapSerialize] at hsaved
    split at hsaved
    · next hempty =>
        rw [isEmpty_iff.mp ((Bool.and_eq_true_iff.mp hempty).2)]
        exact .nil
    · obtain ⟨items, -, hitems⟩ := bind_eq_ok.mp hsaved
      cases hitems
  · rw [complexMapSerialize] at hsaved
    split at hsaved
    · cases hsaved
    · obtain ⟨items, hsave, hitems⟩ := bind_eq_ok.mp hsaved
      have hsaves : List.Forall₂ (fun (e : String × Object Fields δ) item => item.1 = e.1 ∧
          ∃ doc, save e.2 = .ok doc ∧ item.2 = Value.object doc) m.entries items := by
        refine (mapM_eq_ok.mp hsave).imp fun e item hitem => ?_
        obtain ⟨doc, hdoc, hpair⟩ := bind_eq_ok.mp hitem
        cases hpair
        exact ⟨rfl, doc, hdoc, rfl⟩
      rw [emplaceAll_of_sorted (m := m) (map_eq_of_forall₂ hsaves fun _ _ h => h.1)] at hitems
      obtain rfl := Option.some.inj (Except.ok.inj hitems)
      obtain ⟨es, hload, hsame⟩ := forall₂_exists hsaves (S := fun item e' =>
          (do let o ← load (← item.2.asObject); return (item.1, o)) = Except.ok e')
          (T := fun e e' => e'.1 = e.1 ∧ same e.2 e'.2) fun e he item hitem => by
        obtain ⟨hkey, doc, hdoc, hvalue⟩ := hitem
        obtain ⟨o', ho', hsame⟩ := h e.2 (hm e he) doc hdoc
        refine ⟨(e.1, o'), bind_eq_ok.mpr ⟨doc, ?_, bind_eq_ok.mpr ⟨o', ho', ?_⟩⟩, rfl, hsame⟩
        · rw [hvalue]
          rfl
        · rw [hkey]
          rfl
      have hkeys : es.map Prod.fst = m.keys := map_eq_of_forall₂ hsame fun _ _ h => h.1
      have hsorted : es.Pairwise fun a b => a.1 < b.1 := by
        rw [← pairwise_map, hkeys]
        exact pairwise_map.mpr m.sorted
      obtain ⟨hentries, hemplace⟩ := SortedMap.foldl_assign_entries (m := SortedMap.empty) hsorted
      refine ⟨rfl, _, bind_eq_ok.mpr ⟨items, rfl, bind_eq_ok.mpr ⟨es, mapM_eq_ok.mpr hload, rfl⟩⟩, ?_⟩
      rwa [hemplace, hentries]

end

/-! ### A property in the document -/

theorem lookup_emplaceProperty (jsonProp : String) (value : Option (Value δ)) (doc : Json.Members δ)
    (n : String) : (emplaceProperty jsonProp value doc).lookup n =
      (doc.lookup n).or (if n = jsonProp then value else none) := by
  cases value with
  | none =>
    rw [ite_self, Option.or_none]
    rfl
  | some v => exact AssocList.lookup_emplace n

/-! ### Sets -/

variable [LinearOrder δ]

theorem simpleSet_readsBack {type : ItemType} {m : SortedMap (type.Carrier δ) Unit} :
    ReadsBack Eq SortedMap.empty m (simpleContainerSerialize false type m.keys) jsonProp fun map m =>
      deserializePresent jsonProp map
        (simpleContainerRead b type SortedMap.empty fun temp item => temp.assign item ()) m := by
  refine readsBack_present (fun hsaved => ?_) fun v hsaved => ?_
  · rw [simpleContainerSerialize] at hsaved
    split at hsaved
    · next hempty =>
        have hkeys := isEmpty_iff.mp ((Bool.and_eq_true_iff.mp hempty).2)
        exact SortedMap.ext_of_perm (.of_eq (map_eq_nil_iff.mp hkeys))
    · cases hsaved
  · rw [simpleContainerSerialize] at hsaved
    split at hsaved
    · cases hsaved
    · obtain rfl := Option.some.inj (Except.ok.inj hsaved)
      refine ⟨rfl, m, ?_, rfl⟩
      rw [simpleContainerRead_array, SortedMap.keys, foldl_map]
      exact congrArg Except.ok m.foldl_assign_self

/-! ## Classes with distinct names -/

mutual

/-- The nested classes are not partial, and name their properties apart. -/
def Kind.Valid : Kind → Prop
  | .complex isPartial properties => isPartial = false ∧ properties.Valid
  | .complexVector isPartial properties => isPartial = false ∧ properties.Valid
  | .complexMap isPartial properties => isPartial = false ∧ properties.Valid
  | _ => True

def Properties.Valid : Properties → Prop
  | .nil => True
  | .cons _ jsonProp kind rest => kind.Valid ∧ jsonProp ∉ rest.jsonProps ∧ rest.Valid

end

structure Class.Valid (cls : Class) : Prop where
  notPartial : cls.isPartial = false
  properties : cls.properties.Valid

/-! ## The objects there are -/

/-- An object is created or loaded; its members are set, and so are unmapped
members of names no property declares. -/
inductive Object.Built {Fields : Type} (initial : Object Fields δ)
    (loads : Object Fields δ → Prop) (sets : Fields → Fields → Prop) (declared : List String) :
    Object Fields δ → Prop
  | create : Built initial loads sets declared initial
  | load {o : Object Fields δ} (h : loads o) : Built initial loads sets declared o
  | set {o : Object Fields δ} {fields : Fields} (h : Built initial loads sets declared o)
      (hset : sets o.fields fields) : Built initial loads sets declared { o with fields := fields }
  | unmapped {o : Object Fields δ} {unmapped : Json.Members δ}
      (h : Built initial loads sets declared o)
      (hsame : ∀ name ∈ declared, unmapped.lookup name = o.unmapped.lookup name) :
      Built initial loads sets declared { o with unmapped := unmapped }

mutual

/-- What a setter leaves in the member. -/
def Kind.Settable (b : Backend δ) : (kind : Kind) → kind.Member δ → Prop
  | .scalar type _, (m : ScalarMember (type.Carrier δ)) =>
    m.isSet = false → m.value = type.default b
  | .complex isPartial properties, (m : Option (Object (properties.Fields δ) δ)) =>
    ∀ o ∈ m, Object.Built (createInstance b properties)
      (fun o => ∃ map, (createInstance b properties).load (properties.deserialize b) isPartial map =
        .ok o)
      (fun fields fields' => properties.Sets b fields fields') properties.jsonProps o
  | .complexVector isPartial properties, (m : List (Object (properties.Fields δ) δ)) =>
    ∀ o ∈ m, Object.Built (createInstance b properties)
      (fun o => ∃ map, (createInstance b properties).load (properties.deserialize b) isPartial map =
        .ok o)
      (fun fields fields' => properties.Sets b fields fields') properties.jsonProps o
  | .complexMap isPartial properties, (m : SortedMap String (Object (properties.Fields δ) δ)) =>
    ∀ e ∈ m.entries, Object.Built (createInstance b properties)
      (fun o => ∃ map, (createInstance b properties).load (properties.deserialize b) isPartial map =
        .ok o)
      (fun fields fields' => properties.Sets b fields fields') properties.jsonProps e.2
  | .string _, _ | .simpleVector _, _ | .simpleSet _, _ | .stringOrArray, _ | .custom, _
  | .map _, _ => True

/-- One member is set. -/
def Properties.Sets (b : Backend δ) :
    (properties : Properties) → properties.Fields δ → properties.Fields δ → Prop
  | .nil, _, _ => False
  | .cons _ _ kind rest, (fields : kind.Member δ × rest.Fields δ),
      (fields' : kind.Member δ × rest.Fields δ) =>
    kind.Settable b fields'.1 ∧ fields'.2 = fields.2 ∨
      fields'.1 = fields.1 ∧ rest.Sets b fields.2 fields'.2

end

def Class.Built (b : Backend δ) (cls : Class) : cls.Instance δ → Prop :=
  Object.Built (createInstance b cls.properties) (fun o => ∃ map, load b cls map = .ok o)
    (cls.properties.Sets b) cls.properties.jsonProps

/-! ## Their invariant -/

/-- A member the object holds under a declared name is null. -/
def Object.WellFormed {Fields : Type} (fields : Fields → Prop) (declared : List String)
    (o : Object Fields δ) : Prop :=
  fields o.fields ∧ ∀ name ∈ declared, Json.Members.present o.unmapped name = none

mutual

def Kind.WellFormed (b : Backend δ) : (kind : Kind) → kind.Member δ → Prop
  | .scalar type _, (m : ScalarMember (type.Carrier δ)) =>
    m.isSet = false → m.value = type.default b
  | .complex _ properties, (m : Option (Object (properties.Fields δ) δ)) =>
    ∀ o ∈ m, o.WellFormed (fun fields => properties.WellFormed b fields) properties.jsonProps
  | .complexVector _ properties, (m : List (Object (properties.Fields δ) δ)) =>
    ∀ o ∈ m, o.WellFormed (fun fields => properties.WellFormed b fields) properties.jsonProps
  | .complexMap _ properties, (m : SortedMap String (Object (properties.Fields δ) δ)) =>
    ∀ e ∈ m.entries,
      e.2.WellFormed (fun fields => properties.WellFormed b fields) properties.jsonProps
  | .string _, _ | .simpleVector _, _ | .simpleSet _, _ | .stringOrArray, _ | .custom, _
  | .map _, _ => True

def Properties.WellFormed (b : Backend δ) :
    (properties : Properties) → properties.Fields δ → Prop
  | .nil, _ => True
  | .cons _ _ kind rest, (fields : kind.Member δ × rest.Fields δ) =>
    kind.WellFormed b fields.1 ∧ rest.WellFormed b fields.2

end

/-! ## The same object -/

/-- The unmapped members of declared names make no difference. -/
def Object.Same {Fields : Type} (same : Fields → Fields → Prop) (declared : List String)
    (o o' : Object Fields δ) : Prop :=
  same o.fields o'.fields ∧
    ∀ name ∉ declared, o'.unmapped.lookup name = o.unmapped.lookup name

mutual

def Kind.Same : (kind : Kind) → kind.Member δ → kind.Member δ → Prop
  | .scalar _ _, m, m' => m = m'
  | .string _, m, m' => m = m'
  | .simpleVector _, m, m' => m = m'
  | .simpleSet _, m, m' => m = m'
  | .stringOrArray, m, m' => m = m'
  | .custom, m, m' => m = m'
  | .map _, m, m' => m = m'
  | .complex _ properties, (m : Option (Object (properties.Fields δ) δ)),
      (m' : Option (Object (properties.Fields δ) δ)) =>
    Option.Rel (Object.Same (fun fields fields' => properties.Same fields fields')
      properties.jsonProps) m m'
  | .complexVector _ properties, (m : List (Object (properties.Fields δ) δ)),
      (m' : List (Object (properties.Fields δ) δ)) =>
    List.Forall₂ (Object.Same (fun fields fields' => properties.Same fields fields')
      properties.jsonProps) m m'
  | .complexMap _ properties, (m : SortedMap String (Object (properties.Fields δ) δ)),
      (m' : SortedMap String (Object (properties.Fields δ) δ)) =>
    List.Forall₂ (fun e e' => e'.1 = e.1 ∧
      Object.Same (fun fields fields' => properties.Same fields fields') properties.jsonProps
        e.2 e'.2) m.entries m'.entries

def Properties.Same : (properties : Properties) → properties.Fields δ → properties.Fields δ → Prop
  | .nil, _, _ => True
  | .cons _ _ kind rest, (fields : kind.Member δ × rest.Fields δ),
      (fields' : kind.Member δ × rest.Fields δ) =>
    kind.Same fields.1 fields'.1 ∧ rest.Same fields.2 fields'.2

end

/-! ## Saving and loading again -/

def Kind.RoundTrips (b : Backend δ) (kind : Kind) : Prop :=
  ∀ name jsonProp m, kind.WellFormed b m →
    ReadsBack kind.Same (kind.initial b) m (kind.serialize false name m) jsonProp
      fun map m => kind.deserialize b name jsonProp map m

/-- The properties are found where they were put, and nothing is put elsewhere. -/
def Properties.RoundTrips (b : Backend δ) (properties : Properties) : Prop :=
  ∀ fields, properties.WellFormed b fields → ∀ doc doc',
    properties.serialize false fields doc = .ok doc' →
    (∀ name ∈ properties.jsonProps, doc.lookup name = none) →
    (∀ name ∉ properties.jsonProps, doc'.lookup name = doc.lookup name) ∧
    ∀ map, (∀ name ∈ properties.jsonProps, Json.Members.present map name = doc'.present name) →
      ∃ fields' processed,
        properties.deserialize b map (properties.initial b) = .ok (fields', processed) ∧
        properties.Same fields fields' ∧ ∀ name ∈ processed, name ∈ properties.jsonProps

/-- An object of such properties, with its unmapped members. -/
theorem Properties.RoundTrips.load_save {properties : Properties} (h : properties.RoundTrips b)
    (o : Object (properties.Fields δ) δ)
    (ho : o.WellFormed (properties.WellFormed b) properties.jsonProps) (doc : Json.Members δ)
    (hsave : o.save (properties.serialize false) false = .ok doc) :
    ∃ o', (createInstance b properties).load (properties.deserialize b) false doc = .ok o' ∧
      Object.Same properties.Same properties.jsonProps o o' := by
  obtain ⟨doc', hserialize, hdoc⟩ := bind_eq_ok.mp hsave
  cases hdoc
  obtain ⟨helse, hfound⟩ := h o.fields ho.1 [] doc' hserialize fun _ _ => rfl
  obtain ⟨fields', processed, hdeserialize, hsame, hprocessed⟩ :=
    hfound (AssocList.emplaceAll doc' o.unmapped) fun name hname =>
      Json.Members.present_emplaceAll (ho.2 name hname)
  refine ⟨_, bind_eq_ok.mpr ⟨_, hdeserialize, rfl⟩, hsame, fun name hname => ?_⟩
  have hnot : processed.contains name = false := by
    simpa using fun hmem => hname (hprocessed name hmem)
  calc List.lookup name (AssocList.emplaceAll []
        ((AssocList.emplaceAll doc' o.unmapped).filter fun e => !processed.contains e.1))
      = (AssocList.emplaceAll doc' o.unmapped).lookup name := by
        rw [AssocList.lookup_emplaceAll, AssocList.lookup_filter fun n => !processed.contains n,
          hnot]
        rfl
    _ = o.unmapped.lookup name := by
        rw [AssocList.lookup_emplaceAll, helse name hname]
        rfl

theorem cons_roundTrips {name : String} {kind : Kind} {rest : Properties}
    (hkind : kind.RoundTrips b) (hfresh : jsonProp ∉ rest.jsonProps) (hrest : rest.RoundTrips b) :
    (Properties.cons name jsonProp kind rest).RoundTrips b := by
  intro (fields : kind.Member δ × rest.Fields δ) hfields doc doc' hserialize hdoc
  obtain ⟨value, hvalue, hserialize⟩ := bind_eq_ok.mp hserialize
  obtain ⟨hnull, hread⟩ := hkind name jsonProp fields.1 hfields.1 value hvalue
  obtain ⟨helse, hfound⟩ := hrest fields.2 hfields.2 _ doc' hserialize fun n hn => by
    have hne : n ≠ jsonProp := fun h => hfresh (h ▸ hn)
    rw [lookup_emplaceProperty, hdoc n (mem_cons_of_mem _ hn), if_neg hne]
    rfl
  refine ⟨fun n hn => ?_, fun map hmap => ?_⟩
  · have hne : n ≠ jsonProp := fun h => hn (h ▸ mem_cons_self)
    rw [helse n fun h => hn (mem_cons_of_mem _ h), lookup_emplaceProperty, if_neg hne, Option.or_none]
  · have hvalue : doc'.lookup jsonProp = value := by
      rw [helse jsonProp hfresh, lookup_emplaceProperty, hdoc jsonProp mem_cons_self, if_pos rfl,
        Option.none_or]
    have hpresent : Json.Members.present map jsonProp = value := by
      rw [hmap jsonProp mem_cons_self]
      cases value with
      | none => exact Json.Members.present_eq_none hvalue
      | some v => exact Json.Members.present_eq_some hvalue (hnull v rfl)
    obtain ⟨m', hdeserialize, hsame⟩ := hread map hpresent
    obtain ⟨fields', processed, hrestDeserialize, hrestSame, hprocessed⟩ :=
      hfound map fun n hn => hmap n (mem_cons_of_mem _ hn)
    refine ⟨(m', fields'), _, bind_eq_ok.mpr ⟨(m', value.isSome), ?_, bind_eq_ok.mpr
      ⟨(fields', processed), hrestDeserialize, rfl⟩⟩, ⟨hsame, hrestSame⟩, fun n hn => ?_⟩
    · exact congrArg (inProperty name) hdeserialize
    · split at hn
      · exact (mem_cons.mp hn).elim (fun h => h ▸ mem_cons_self)
          fun h => mem_cons_of_mem _ (hprocessed n h)
      · exact mem_cons_of_mem _ (hprocessed n hn)

mutual

theorem Kind.roundTrips : ∀ kind : Kind, kind.Valid → kind.RoundTrips b
  | .scalar _ _, _ => fun _ _ _ hm => scalar_readsBack hm
  | .string _, _ => fun _ _ _ _ => string_readsBack
  | .simpleVector _, _ => fun _ _ _ _ => simpleVector_readsBack
  | .simpleSet _, _ => fun _ _ _ _ => simpleSet_readsBack
  | .stringOrArray, _ => fun _ _ _ _ => stringOrArray_readsBack
  | .custom, _ => fun _ _ _ _ => custom_readsBack
  | .complex _ properties, ⟨rfl, h⟩ => fun _ _ _ hm =>
    complex_readsBack (Properties.roundTrips properties h).load_save hm
  | .complexVector _ properties, ⟨rfl, h⟩ => fun _ _ _ hm =>
    complexVector_readsBack (Properties.roundTrips properties h).load_save hm
  | .complexMap _ properties, ⟨rfl, h⟩ => fun _ _ _ hm =>
    complexMap_readsBack (Properties.roundTrips properties h).load_save hm
  | .map _, _ => fun _ _ _ _ => map_readsBack

theorem Properties.roundTrips : ∀ properties : Properties, properties.Valid → properties.RoundTrips b
  | .nil, _ => by
    intro fields _ doc doc' hserialize _
    cases hserialize
    exact ⟨fun _ _ => rfl, fun _ _ => ⟨(), [], rfl, trivial, nofun⟩⟩
  | .cons _ _ kind rest, ⟨hkind, hfresh, hrest⟩ =>
    cons_roundTrips (Kind.roundTrips kind hkind) hfresh (Properties.roundTrips rest hrest)

end

end Baselib.Data.DataModelObject
