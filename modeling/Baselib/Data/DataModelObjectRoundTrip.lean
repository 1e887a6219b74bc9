/-
Baselib.Data.DataModelObjectRoundTrip — an object which is saved and loaded is
the same object, and a document which is loaded and saved keeps the members no
property declares.

Whatever is loaded can be saved again, and a member of a nested document is
followed by its path through the properties which hold objects.
-/
import Baselib.Data.DataModelObjectTheorems

namespace Baselib.Data.DataModelObject

open Lib Lib.Checked List
open Json (Value Error ScalarType ItemType Backend stringTo)

variable {δ : Type} {b : Backend δ}

/-! ## The members no property declares -/

inductive Step where
  | member (name : String)
  | item (index : Nat)

/-- A member of the document itself, or of a nested one. -/
def UndeclaredIn (declared : List String) (nested : Json.Members δ → List Step → Value δ → Prop)
    (map : Json.Members δ) (path : List Step) (value : Value δ) : Prop :=
  (∃ name ∉ declared, path = [.member name] ∧ map.lookup name = some value) ∨ nested map path value

def UndeclaredInObject (undeclared : Json.Members δ → List Step → Value δ → Prop) (v : Value δ)
    (path : List Step) (value : Value δ) : Prop :=
  ∃ map, v = .object map ∧ undeclared map path value

def UndeclaredInArray (undeclared : Json.Members δ → List Step → Value δ → Prop) (v : Value δ)
    (path : List Step) (value : Value δ) : Prop :=
  ∃ items index item rest, v = .array items ∧ path = .item index :: rest ∧
    items[index]? = some item ∧ UndeclaredInObject undeclared item rest value

def UndeclaredInMap (undeclared : Json.Members δ → List Step → Value δ → Prop) (v : Value δ)
    (path : List Step) (value : Value δ) : Prop :=
  ∃ members key item rest, v = .object members ∧ path = .member key :: rest ∧
    members.lookup key = some item ∧ UndeclaredInObject undeclared item rest value

mutual

/-- `value` is at the path, below the value of the property, and no property
declares it. -/
def Kind.Undeclared : Kind → Value δ → List Step → Value δ → Prop
  | .complex _ properties, v, path, value =>
    UndeclaredInObject (UndeclaredIn properties.jsonProps
      fun map path value => properties.UndeclaredBelow map path value) v path value
  | .complexVector _ properties, v, path, value =>
    UndeclaredInArray (UndeclaredIn properties.jsonProps
      fun map path value => properties.UndeclaredBelow map path value) v path value
  | .complexMap _ properties, v, path, value =>
    UndeclaredInMap (UndeclaredIn properties.jsonProps
      fun map path value => properties.UndeclaredBelow map path value) v path value
  | _, _, _, _ => False

def Properties.UndeclaredBelow :
    Properties → Json.Members δ → List Step → Value δ → Prop
  | .nil, _, _, _ => False
  | .cons _ jsonProp kind rest, map, path, value =>
    (∃ v below, map.lookup jsonProp = some v ∧ path = .member jsonProp :: below ∧
      kind.Undeclared v below value) ∨ rest.UndeclaredBelow map path value

end

def Class.Undeclared (cls : Class) (map : Json.Members δ) (path : List Step) (value : Value δ) :
    Prop :=
  UndeclaredIn cls.properties.jsonProps cls.properties.UndeclaredBelow map path value

/-! ## What is read can be saved -/

/-- A member which was read is one of an object there is, and is saved with
what no property declares. -/
def ReadsWell {M : Type} (wellFormed : M → Prop)
    (undeclared : Value δ → List Step → Value δ → Prop) (initial : M)
    (serialize : M → Except Error (Option (Value δ))) (jsonProp : String)
    (deserialize : Json.Members δ → M → Except Error (M × Bool)) : Prop :=
  ∀ map m processed, deserialize map initial = .ok (m, processed) →
    wellFormed m ∧ (processed = false → Json.Members.present map jsonProp = none) ∧
    ∃ value, serialize m = .ok value ∧ ∀ v, map.lookup jsonProp = some v →
      ∀ path w, undeclared v path w → ∃ v', value = some v' ∧ undeclared v' path w

theorem scalar_readsWell {name jsonProp : String} {type : ScalarType} {isRequired : Bool} :
    ReadsWell (fun m : ScalarMember (type.Carrier δ) => m.isSet = false → m.value = type.default b)
      (fun _ _ _ => False) ⟨type.default b, false⟩ (scalarSerialize false name type isRequired)
      jsonProp fun map m => scalarDeserialize b jsonProp map name type isRequired m := by
  intro map m processed hdeserialize
  simp only [scalarDeserialize] at hdeserialize
  split at hdeserialize
  · obtain ⟨value, -, hm⟩ := bind_eq_ok.mp hdeserialize
    obtain ⟨rfl, rfl⟩ := Prod.mk.inj (Except.ok.inj hm)
    exact ⟨(fun hset => by cases hset), (fun hp => by cases hp), _, rfl, fun _ _ _ _ h => h.elim⟩
  · next hpresent =>
      cases isRequired with
      | true => cases hdeserialize
      | false =>
        obtain ⟨rfl, rfl⟩ := Prod.mk.inj (Except.ok.inj hdeserialize)
        exact ⟨fun _ => rfl, fun _ => hpresent, none, rfl, fun _ _ _ _ h => h.elim⟩

theorem string_readsWell {name jsonProp : String} {isRequired : Bool} :
    ReadsWell (δ := δ) (fun _ : String => True) (fun _ _ _ => False) ""
      (stringSerialize false name isRequired) jsonProp
      fun map m => stringDeserialize jsonProp map name isRequired m := by
  intro map m processed hdeserialize
  have hchecked : ∃ value : String,
      (if isRequired && value == "" then .error (requiredPropertyNotSet name "loading")
        else .ok (value, (map.present jsonProp).isSome)) = Except.ok (m, processed) := by
    simp only [stringDeserialize] at hdeserialize
    split at hdeserialize
    · obtain ⟨value, -, hm⟩ := bind_eq_ok.mp hdeserialize
      exact ⟨value, hm⟩
    · exact ⟨"", hdeserialize⟩
  obtain ⟨value, hm⟩ := hchecked
  split at hm
  · cases hm
  · next hprovided =>
      obtain ⟨rfl, rfl⟩ := Prod.mk.inj (Except.ok.inj hm)
      refine ⟨trivial, fun h => Option.isSome_eq_false_iff.mp h |> Option.isNone_iff_eq_none.mp, ?_⟩
      by_cases hempty : value = ""
      · subst hempty
        cases isRequired with
        | true => exact absurd rfl hprovided
        | false => exact ⟨none, rfl, fun _ _ _ _ h => h.elim⟩
      · refine ⟨some (.string value), ?_, fun _ _ _ _ h => h.elim⟩
        have hne : (value != "") = true := bne_iff_ne.mpr hempty
        rw [stringSerialize, hne]
        rfl

/-- The other kinds are as they were created, or are read. -/
theorem readsWell_present {M : Type} {wellFormed : M → Prop}
    {undeclared : Value δ → List Step → Value δ → Prop} {initial : M}
    {serialize : M → Except Error (Option (Value δ))} {jsonProp : String}
    {read : Value δ → Except Error M} (hinitial : wellFormed initial)
    (hsaved : ∃ value, serialize initial = .ok value)
    (hnull : ∀ path w, ¬undeclared .null path w)
    (hread : ∀ v m, read v = .ok m → wellFormed m ∧ ∃ value, serialize m = .ok value ∧
      ∀ path w, undeclared v path w → ∃ v', value = some v' ∧ undeclared v' path w) :
    ReadsWell wellFormed undeclared initial serialize jsonProp
      fun map m => deserializePresent jsonProp map read m := by
  intro map m processed hdeserialize
  simp only [deserializePresent] at hdeserialize
  split at hdeserialize
  · next hpresent =>
      obtain ⟨rfl, rfl⟩ := Prod.mk.inj (Except.ok.inj hdeserialize)
      obtain ⟨value, hvalue⟩ := hsaved
      refine ⟨hinitial, fun _ => hpresent, value, hvalue, fun v hv path w h => ?_⟩
      obtain rfl := Json.Members.eq_null_of_present hpresent hv
      exact absurd h (hnull path w)
  · next v hpresent =>
      obtain ⟨m', hm', hm⟩ := bind_eq_ok.mp hdeserialize
      obtain ⟨rfl, rfl⟩ := Prod.mk.inj (Except.ok.inj hm)
      obtain ⟨hwell, value, hvalue, hkept⟩ := hread v m' hm'
      refine ⟨hwell, (fun hp => by cases hp), value, hvalue, fun v' hv' => ?_⟩
      obtain rfl := Option.some.inj (hv'.symm.trans (Json.Members.lookup_of_present hpresent))
      exact hkept

/-- Kinds which hold no objects. -/
theorem readsWell_total {M : Type} {initial : M} {serialize : M → Except Error (Option (Value δ))}
    {jsonProp : String} {read : Value δ → Except Error M}
    (hserialize : ∀ m, ∃ value, serialize m = .ok value) :
    ReadsWell (fun _ : M => True) (fun _ _ _ => False) initial serialize jsonProp
      fun map m => deserializePresent jsonProp map read m :=
  readsWell_present trivial (hserialize initial) (fun _ _ h => h) fun _ m _ =>
    ⟨trivial, (hserialize m).choose, (hserialize m).choose_spec, fun _ _ h => h.elim⟩

/-! ### Kinds whose members are objects -/

section

variable {Fields : Type} {wellFormed : Object Fields δ → Prop}
  {undeclared : Json.Members δ → List Step → Value δ → Prop}
  {save : Object Fields δ → Except Error (Json.Members δ)}
  {load : Json.Members δ → Except Error (Object Fields δ)} {jsonProp : String}

theorem complex_readsWell (h : ∀ map o, load map = .ok o → wellFormed o ∧
      ∃ doc, save o = .ok doc ∧ ∀ path w, undeclared map path w → undeclared doc path w) :
    ReadsWell (fun m : Option (Object Fields δ) => ∀ o ∈ m, wellFormed o)
      (UndeclaredInObject undeclared) none (complexSerialize false save) jsonProp fun map m =>
      deserializePresent jsonProp map (complexRead load) m := by
  refine readsWell_present (fun o ho => (by cases ho)) ⟨none, rfl⟩ (fun path w hw => ?_)
    fun v m hread => ?_
  · obtain ⟨map, hmap, -⟩ := hw
    cases hmap
  · obtain ⟨map, hmap, hread⟩ := bind_eq_ok.mp hread
    obtain ⟨o, ho, hm⟩ := bind_eq_ok.mp hread
    cases hm
    obtain ⟨hwell, doc, hdoc, hkept⟩ := h map o ho
    refine ⟨fun o' ho' => Option.some.inj ho' ▸ hwell, some (.object doc),
      bind_eq_ok.mpr ⟨doc, hdoc, rfl⟩, fun path w hw => ⟨_, rfl, doc, rfl, ?_⟩⟩
    obtain ⟨map', rfl, hw⟩ := hw
    cases hmap
    exact hkept path w hw

theorem complexVector_readsWell (h : ∀ map o, load map = .ok o → wellFormed o ∧
      ∃ doc, save o = .ok doc ∧ ∀ path w, undeclared map path w → undeclared doc path w) :
    ReadsWell (fun m : List (Object Fields δ) => ∀ o ∈ m, wellFormed o)
      (UndeclaredInArray undeclared) [] (complexVectorSerialize false save) jsonProp fun map m =>
      deserializePresent jsonProp map (complexVectorRead load) m := by
  refine readsWell_present (fun o ho => (by cases ho)) ⟨none, rfl⟩ (fun path w hw => ?_)
    fun v m hread => ?_
  · obtain ⟨items, _, _, _, hitems, -⟩ := hw
    cases hitems
  · obtain ⟨items, hitems, hobjects⟩ := bind_eq_ok.mp hread
    obtain rfl := Value.asArray_eq_ok.mp hitems
    have hloads : List.Forall₂ (fun item o => ∃ map, item = Value.object map ∧ load map = .ok o)
        items m := (mapM_eq_ok.mp hobjects).imp fun item o ho => by
      obtain ⟨map, hmap, hload⟩ := bind_eq_ok.mp ho
      exact ⟨map, Value.asObject_eq_ok.mp hmap, hload⟩
    obtain ⟨docs, hsaves, hkept⟩ := forall₂_exists (S := fun o doc => save o = .ok doc)
        (T := fun item doc => ∀ path w, UndeclaredInObject undeclared item path w →
          undeclared doc path w) hloads fun item _ o ho => by
      obtain ⟨map, rfl, hload⟩ := ho
      obtain ⟨-, doc, hdoc, hkept⟩ := h map o hload
      refine ⟨doc, hdoc, fun path w hw => ?_⟩
      obtain ⟨_, hmap, hw⟩ := hw
      obtain rfl := Value.object.inj hmap
      exact hkept path w hw
    refine ⟨fun o ho => ?_, ?_⟩
    · obtain ⟨item, -, map, -, hload⟩ := exists_of_mem_right hloads ho
      exact (h map o hload).1
    · cases hkept with
      | nil =>
        cases hloads
        refine ⟨none, rfl, fun path w hw => ?_⟩
        obtain ⟨_, index, item, rest, hitems, -, hitem, -⟩ := hw
        obtain rfl := Value.array.inj hitems
        cases hitem
      | @cons item doc items docs hfirst hrest =>
        refine ⟨some (.array ((doc :: docs).map .object)), ?_, fun path w hw => ⟨_, rfl, ?_⟩⟩
        · cases hsaves with
          | cons hsave hsaves =>
            exact bind_eq_ok.mpr ⟨_, mapM_eq_ok.mpr (.cons hsave hsaves), rfl⟩
        · obtain ⟨_, index, item', rest, hitems, rfl, hitem, hw⟩ := hw
          obtain rfl := Value.array.inj hitems
          obtain ⟨doc', hdoc', hkept⟩ := getElem?_of_forall₂ (.cons hfirst hrest) hitem
          exact ⟨_, index, .object doc', rest, rfl, rfl, by rw [getElem?_map, hdoc']; rfl,
            doc', rfl, hkept rest w hw⟩

theorem complexMap_readsWell (h : ∀ map o, load map = .ok o → wellFormed o ∧
      ∃ doc, save o = .ok doc ∧ ∀ path w, undeclared map path w → undeclared doc path w) :
    ReadsWell (fun m : SortedMap String (Object Fields δ) => ∀ e ∈ m.entries, wellFormed e.2)
      (UndeclaredInMap undeclared) SortedMap.empty (complexMapSerialize false save) jsonProp
      fun map m => deserializePresent jsonProp map (complexMapRead load) m := by
  refine readsWell_present (fun o ho => (by cases ho)) ⟨none, rfl⟩ (fun path w hw => ?_)
    fun v m hread => ?_
  · obtain ⟨items, _, _, _, hitems, -⟩ := hw
    cases hitems
  · obtain ⟨members, hmembers, hread'⟩ := bind_eq_ok.mp hread
    obtain rfl := Value.asObject_eq_ok.mp hmembers
    obtain ⟨items, hitems, hm⟩ := bind_eq_ok.mp hread'
    have hlookup : ∀ key, m.lookup key = items.lookup key := by
      intro key
      rw [← Except.ok.inj hm]
      exact SortedMap.lookup_foldl_emplace key
    have hloads : List.Forall₂ (fun (e : String × Value δ) (item : String × Object Fields δ) =>
        item.1 = e.1 ∧ ∃ map, e.2 = .object map ∧ load map = .ok item.2) members items :=
      (mapM_eq_ok.mp hitems).imp fun e item hitem => by
        obtain ⟨map, hmap, hitem⟩ := bind_eq_ok.mp hitem
        obtain ⟨o, hload, hpair⟩ := bind_eq_ok.mp hitem
        cases hpair
        exact ⟨rfl, map, Value.asObject_eq_ok.mp hmap, hload⟩
    have hentries : ∀ e ∈ m.entries, ∃ map, load map = .ok e.2 := by
      intro e he
      have hfound := (hlookup e.1).symm.trans (SortedMap.lookup_eq_some.mpr he)
      obtain ⟨before, after, hsplit, -⟩ := lookup_eq_some_iff.mp hfound
      obtain ⟨_, -, -, map, -, hload⟩ := exists_of_mem_right hloads (b := (e.1, e.2))
        (hsplit ▸ mem_append_right _ mem_cons_self)
      exact ⟨map, hload⟩
    refine ⟨fun e he => ?_, ?_⟩
    · obtain ⟨map, hload⟩ := hentries e he
      exact (h map e.2 hload).1
    · obtain ⟨saved, hsaved, hdocs⟩ := forall₂_exists (forall₂_same.mpr fun _ _ => rfl)
          (S := fun (e : String × Object Fields δ) (item : String × Value δ) =>
            (do let doc ← save e.2; return (e.1, Value.object doc)) = Except.ok item)
          (T := fun e item => item.1 = e.1 ∧ ∃ doc, save e.2 = .ok doc ∧ item.2 = .object doc)
          fun e (he : e ∈ m.entries) e' (heq : e = e') => by
        subst heq
        obtain ⟨map, hload⟩ := hentries e he
        obtain ⟨-, doc, hdoc, -⟩ := h map e.2 hload
        exact ⟨(e.1, .object doc), bind_eq_ok.mpr ⟨doc, hdoc, rfl⟩, rfl, doc, hdoc, rfl⟩
      have hkept : ∀ path w, UndeclaredInMap undeclared (.object members) path w →
          UndeclaredInMap undeclared (.object saved) path w := by
        intro path w hw
        obtain ⟨_, key, item, rest, hmembers, rfl, hitem, map, rfl, hw⟩ := hw
        obtain rfl := Value.object.inj hmembers
        obtain ⟨o, ho, _, hmap, hload⟩ := AssocList.lookup_of_forall₂
          (R := fun v o => ∃ map, v = Value.object map ∧ load map = .ok o) hloads hitem
        obtain rfl := Value.object.inj hmap
        obtain ⟨item', hitem', doc, hdoc, rfl⟩ := AssocList.lookup_of_forall₂
          (R := fun o v => ∃ doc, save o = .ok doc ∧ v = Value.object doc) hdocs
          ((hlookup key).trans ho)
        obtain ⟨-, doc', hdoc', hkept⟩ := h map o hload
        obtain rfl := Except.ok.inj (hdoc.symm.trans hdoc')
        exact ⟨saved, key, _, rest, rfl, rfl, hitem', doc, rfl, hkept rest w hw⟩
      rw [complexMapSerialize]
      split
      · next hempty =>
          refine ⟨none, rfl, fun path w hw => ?_⟩
          obtain ⟨_, key, item, rest, hobject, -, hitem, -⟩ := hkept path w hw
          obtain rfl := Value.object.inj hobject
          rw [isEmpty_iff.mp (Bool.and_eq_true_iff.mp hempty).2] at hdocs
          cases hdocs
          cases hitem
      · refine ⟨some (.object saved), bind_eq_ok.mpr ⟨saved, mapM_eq_ok.mpr hsaved, ?_⟩,
          fun path w hw => ⟨_, rfl, hkept path w hw⟩⟩
        rw [emplaceAll_of_sorted (m := m) (map_eq_of_forall₂ hdocs fun _ _ h => h.1)]
        rfl

end

/-! ## The invariant of the objects there are -/

theorem Object.Built.wellFormed {Fields : Type} {initial : Object Fields δ}
    {loads : Object Fields δ → Prop} {sets : Fields → Fields → Prop} {declared : List String}
    {fieldsWellFormed : Fields → Prop} (hinitial : initial.WellFormed fieldsWellFormed declared)
    (hloads : ∀ o, loads o → o.WellFormed fieldsWellFormed declared)
    (hsets : ∀ fields fields', fieldsWellFormed fields → sets fields fields' →
      fieldsWellFormed fields') {o : Object Fields δ} (h : Object.Built initial loads sets declared o) :
    o.WellFormed fieldsWellFormed declared := by
  induction h with
  | create => exact hinitial
  | load h => exact hloads _ h
  | set _ hset ih => exact ⟨hsets _ _ ih.1 hset, ih.2⟩
  | unmapped _ hsame ih =>
    exact ⟨ih.1, fun name hname =>
      (Json.Members.present_of_lookup (hsame name hname)).trans (ih.2 name hname)⟩

/-! ## What is loaded can be saved -/

variable [LinearOrder δ]

def Kind.ReadsWell (b : Backend δ) (kind : Kind) : Prop :=
  ∀ name jsonProp, DataModelObject.ReadsWell (kind.WellFormed b) kind.Undeclared (kind.initial b)
    (kind.serialize false name) jsonProp fun map m => kind.deserialize b name jsonProp map m

/-- Every member is read well, and what was not processed is not there. -/
def Properties.LoadsWell (b : Backend δ) (properties : Properties) : Prop :=
  ∀ map fields processed,
    properties.deserialize b map (properties.initial b) = .ok (fields, processed) →
    properties.WellFormed b fields ∧
    (∀ name ∈ processed, name ∈ properties.jsonProps) ∧
    (∀ name ∈ properties.jsonProps, name ∉ processed → Json.Members.present map name = none) ∧
    ∀ doc, (∀ name ∈ properties.jsonProps, doc.lookup name = none) →
      ∃ doc', properties.serialize false fields doc = .ok doc' ∧
        (∀ name ∉ properties.jsonProps, doc'.lookup name = doc.lookup name) ∧
        ∀ added path w, properties.UndeclaredBelow map path w →
          properties.UndeclaredBelow (AssocList.emplaceAll doc' added) path w

theorem Properties.LoadsWell.save_load {properties : Properties} (h : properties.LoadsWell b)
    (map : Json.Members δ) (o : Object (properties.Fields δ) δ)
    (hload : (createInstance b properties).load (properties.deserialize b) false map = .ok o) :
    o.WellFormed (properties.WellFormed b) properties.jsonProps ∧
    ∃ doc, o.save (properties.serialize false) false = .ok doc ∧
      ∀ path w, UndeclaredIn properties.jsonProps properties.UndeclaredBelow map path w →
        UndeclaredIn properties.jsonProps properties.UndeclaredBelow doc path w := by
  obtain ⟨⟨fields, processed⟩, hdeserialize, ho⟩ := bind_eq_ok.mp hload
  cases ho
  obtain ⟨hwell, hprocessed, hleft, hserialize⟩ := h map fields processed hdeserialize
  obtain ⟨doc, hdoc, helse, hbelow⟩ := hserialize [] fun _ _ => rfl
  have hunmapped : ∀ name, List.lookup name (AssocList.emplaceAll []
      (map.filter fun e => !processed.contains e.1)) =
        if !processed.contains name then map.lookup name else none := by
    intro name
    rw [AssocList.lookup_emplaceAll, AssocList.lookup_filter fun n => !processed.contains n]
    rfl
  refine ⟨⟨hwell, fun name hname => ?_⟩, _, bind_eq_ok.mpr ⟨doc, hdoc, rfl⟩, fun path w hw => ?_⟩
  · by_cases hmem : name ∈ processed
    · refine Json.Members.present_eq_none ((hunmapped name).trans ?_)
      rw [contains_iff_mem.mpr hmem]
      rfl
    · refine (Json.Members.present_of_lookup ((hunmapped name).trans ?_)).trans (hleft name hname hmem)
      rw [if_pos (by simpa using hmem)]
  · refine hw.imp ?_ (hbelow _ path w)
    rintro ⟨name, hname, rfl, hvalue⟩
    have hmem : name ∉ processed := fun hmem => hname (hprocessed name hmem)
    have hkept := (hunmapped name).trans (if_pos (by simpa using hmem))
    refine ⟨name, hname, rfl, (AssocList.lookup_emplaceAll name).trans ?_⟩
    rw [helse name hname]
    exact hkept.trans hvalue

theorem inProperty_eq_ok {α : Type} {name : String} {x : Except Error α} {a : α} :
    inProperty name x = .ok a ↔ x = .ok a := by
  cases x with
  | ok a' => exact Iff.rfl
  | error e => exact ⟨nofun, nofun⟩

theorem cons_loadsWell {name jsonProp : String} {kind : Kind} {rest : Properties}
    (hkind : kind.ReadsWell b) (hfresh : jsonProp ∉ rest.jsonProps) (hrest : rest.LoadsWell b) :
    (Properties.cons name jsonProp kind rest).LoadsWell b := by
  intro map (fields : kind.Member δ × rest.Fields δ) processed hdeserialize
  obtain ⟨⟨m, isProcessed⟩, hm, hdeserialize⟩ := bind_eq_ok.mp hdeserialize
  obtain ⟨⟨ms, processedProperties⟩, hms, hpair⟩ := bind_eq_ok.mp hdeserialize
  obtain ⟨rfl, rfl⟩ := Prod.mk.inj (Except.ok.inj hpair)
  obtain ⟨hwell, hread, value, hvalue, hkept⟩ :=
    hkind name jsonProp map m isProcessed (inProperty_eq_ok.mp hm)
  obtain ⟨hrestWell, hprocessed, hleft, hserialize⟩ := hrest map ms processedProperties hms
  refine ⟨⟨hwell, hrestWell⟩, fun n hn => ?_, fun n hn hnot => ?_, fun doc hdoc => ?_⟩
  · split at hn
    · exact (mem_cons.mp hn).elim (fun h => h ▸ mem_cons_self)
        fun h => mem_cons_of_mem _ (hprocessed n h)
    · exact mem_cons_of_mem _ (hprocessed n hn)
  · rcases mem_cons.mp hn with rfl | hn
    · refine hread (Bool.eq_false_iff.mpr fun h => hnot ?_)
      rw [if_pos h]
      exact mem_cons_self
    · refine hleft n hn fun hmem => hnot ?_
      split
      · exact mem_cons_of_mem _ hmem
      · exact hmem
  · obtain ⟨doc', hdoc', helse, hbelow⟩ := hserialize (emplaceProperty jsonProp value doc)
      fun n hn => by
        have hne : n ≠ jsonProp := fun h => hfresh (h ▸ hn)
        rw [lookup_emplaceProperty, hdoc n (mem_cons_of_mem _ hn), if_neg hne]
        rfl
    refine ⟨doc', bind_eq_ok.mpr ⟨value, hvalue, hdoc'⟩, fun n hn => ?_, fun added path w hw => ?_⟩
    · have hne : n ≠ jsonProp := fun h => hn (h ▸ mem_cons_self)
      rw [helse n fun h => hn (mem_cons_of_mem _ h), lookup_emplaceProperty, if_neg hne,
        Option.or_none]
    · refine hw.imp ?_ (hbelow added path w)
      rintro ⟨v, below, hv, rfl, hundeclared⟩
      obtain ⟨v', rfl, hundeclared'⟩ := hkept v hv below w hundeclared
      refine ⟨v', below, ?_, rfl, hundeclared'⟩
      rw [AssocList.lookup_emplaceAll, helse jsonProp hfresh, lookup_emplaceProperty,
        hdoc jsonProp mem_cons_self, if_pos rfl]
      rfl

mutual

theorem Kind.readsWell : ∀ kind : Kind, kind.Valid → kind.ReadsWell b
  | .scalar _ _, _ => fun _ _ => scalar_readsWell
  | .string _, _ => fun _ _ => string_readsWell
  | .simpleVector _, _ => fun _ _ => readsWell_total fun _ => ⟨_, rfl⟩
  | .simpleSet _, _ => fun _ _ => readsWell_total fun _ => ⟨_, rfl⟩
  | .stringOrArray, _ => fun _ _ => readsWell_total fun _ => ⟨_, rfl⟩
  | .custom, _ => fun _ _ => readsWell_total fun _ => ⟨_, rfl⟩
  | .complex _ properties, ⟨rfl, h⟩ => fun _ _ =>
    complex_readsWell (Properties.loadsWell properties h).save_load
  | .complexVector _ properties, ⟨rfl, h⟩ => fun _ _ =>
    complexVector_readsWell (Properties.loadsWell properties h).save_load
  | .complexMap _ properties, ⟨rfl, h⟩ => fun _ _ =>
    complexMap_readsWell (Properties.loadsWell properties h).save_load
  | .map _, _ => fun _ _ => readsWell_total fun _ => ⟨_, rfl⟩

theorem Properties.loadsWell : ∀ properties : Properties, properties.Valid → properties.LoadsWell b
  | .nil, _ => by
    intro map fields processed hdeserialize
    obtain ⟨-, rfl⟩ := Prod.mk.inj (Except.ok.inj hdeserialize)
    exact ⟨trivial, nofun, nofun,
      fun doc _ => ⟨doc, rfl, fun _ _ => rfl, fun _ _ _ h => h⟩⟩
  | .cons _ _ kind rest, ⟨hkind, hfresh, hrest⟩ =>
    cons_loadsWell (Kind.readsWell kind hkind) hfresh (Properties.loadsWell rest hrest)

end

/-! ## Objects which are built are well-formed -/

theorem Kind.initial_wellFormed (kind : Kind) : kind.WellFormed b (kind.initial b) := by
  cases kind with
  | scalar type isRequired => exact fun _ => rfl
  | complex _ _ | complexVector _ _ => exact fun o ho => (by cases ho)
  | complexMap isPartial properties => exact fun e he => (by cases he)
  | _ => trivial

theorem Properties.initial_wellFormed :
    ∀ properties : Properties, properties.WellFormed b (properties.initial b)
  | .nil => trivial
  | .cons _ _ kind rest => ⟨kind.initial_wellFormed, rest.initial_wellFormed⟩

theorem Properties.built_wellFormed {properties : Properties} (hvalid : properties.Valid)
    (hsets : ∀ fields fields', properties.WellFormed b fields → properties.Sets b fields fields' →
      properties.WellFormed b fields') (o : Object (properties.Fields δ) δ)
    (h : Object.Built (createInstance b properties)
      (fun o => ∃ map, (createInstance b properties).load (properties.deserialize b) false map =
        .ok o) (properties.Sets b) properties.jsonProps o) :
    o.WellFormed (properties.WellFormed b) properties.jsonProps := by
  refine h.wellFormed ⟨properties.initial_wellFormed, fun _ _ => rfl⟩ (fun o ho => ?_) hsets
  obtain ⟨map, hload⟩ := ho
  exact ((properties.loadsWell hvalid).save_load map o hload).1

mutual

theorem Kind.settable_wellFormed :
    ∀ kind : Kind, kind.Valid → ∀ m, kind.Settable b m → kind.WellFormed b m
  | .scalar _ _, _ => fun _ h => h
  | .string _, _ => fun _ h => h
  | .simpleVector _, _ => fun _ h => h
  | .simpleSet _, _ => fun _ h => h
  | .stringOrArray, _ => fun _ h => h
  | .custom, _ => fun _ h => h
  | .complex _ properties, ⟨rfl, hvalid⟩ => fun _ h o ho =>
    properties.built_wellFormed hvalid (Properties.sets_wellFormed properties hvalid) o (h o ho)
  | .complexVector _ properties, ⟨rfl, hvalid⟩ => fun _ h o ho =>
    properties.built_wellFormed hvalid (Properties.sets_wellFormed properties hvalid) o (h o ho)
  | .complexMap _ properties, ⟨rfl, hvalid⟩ => fun _ h e he =>
    properties.built_wellFormed hvalid (Properties.sets_wellFormed properties hvalid) e.2 (h e he)
  | .map _, _ => fun _ h => h

theorem Properties.sets_wellFormed : ∀ properties : Properties, properties.Valid →
    ∀ fields fields', properties.WellFormed b fields → properties.Sets b fields fields' →
      properties.WellFormed b fields'
  | .nil, _ => fun _ _ _ h => h.elim
  | .cons _ _ kind rest, ⟨hkind, _, hrest⟩ => by
    intro fields fields' hfields hsets
    rcases hsets with ⟨hset, hsame⟩ | ⟨hsame, hsets⟩
    · exact ⟨Kind.settable_wellFormed kind hkind _ hset, hsame ▸ hfields.2⟩
    · exact ⟨hsame ▸ hfields.1, Properties.sets_wellFormed rest hrest _ _ hfields.2 hsets⟩

end

/-! ## The round trip -/

def Class.Same (cls : Class) (o o' : cls.Instance δ) : Prop :=
  Object.Same cls.properties.Same cls.properties.jsonProps o o'

/-- A saved object is loaded as the same object, and a loaded document is saved
with every member no property declares. -/
theorem load_save_and_save_load (b : Backend δ) {cls : Class} (hcls : cls.Valid) :
    (∀ o, cls.Built b o → ∀ doc, save false cls o = .ok doc →
      ∃ o', load b cls doc = .ok o' ∧ cls.Same o o') ∧
    (∀ map o, load b cls map = .ok o → ∃ doc, save false cls o = .ok doc ∧
      ∀ path value, cls.Undeclared map path value → cls.Undeclared doc path value) := by
  obtain ⟨isPartial, properties⟩ := cls
  obtain ⟨rfl, hvalid⟩ := hcls
  constructor
  · intro o ho doc hsave
    have hwell := properties.built_wellFormed hvalid (properties.sets_wellFormed hvalid) o ho
    exact (properties.roundTrips hvalid).load_save o hwell doc hsave
  · intro map o hload
    exact ((properties.loadsWell hvalid).save_load map o hload).2

/-! ### A class with an object in it -/

def accountBackend : Backend Int := ⟨0, id, fun _ _ => none⟩

def account : Class where
  isPartial := false
  properties := .cons "name" "name" (.string true) <| .cons "owner" "owner"
    (.complex false (.cons "age" "age" (.scalar (.integral .int) false) .nil)) .nil

def accountDocument : Json.Members Int :=
  [("name", .string "a"), ("owner", .object [("age", .integer 7), ("email", .string "b")])]

theorem account_valid : account.Valid :=
  ⟨rfl, trivial, by decide, ⟨rfl, trivial, by decide, trivial⟩, by decide, trivial⟩

/-- The document is loaded and the object saved and loaded; the member below
"owner" is kept. -/
theorem account_load_save : ∃ o doc o', load accountBackend account accountDocument = .ok o ∧
    save false account o = .ok doc ∧
    account.Undeclared doc [.member "owner", .member "email"] (.string "b") ∧
    load accountBackend account doc = .ok o' ∧ account.Same o o' := by
  have hload : ∃ o, load accountBackend account accountDocument = .ok o := ⟨_, rfl⟩
  obtain ⟨o, ho⟩ := hload
  have h := load_save_and_save_load accountBackend account_valid
  obtain ⟨doc, hdoc, hkept⟩ := h.2 _ o ho
  obtain ⟨o', ho', hsame⟩ := h.1 o (.load ⟨_, ho⟩) doc hdoc
  refine ⟨o, doc, o', ho, hdoc, hkept _ _ (.inr ?_), ho', hsame⟩
  exact .inr (.inl ⟨_, _, rfl, rfl, _, rfl, .inl ⟨"email", by decide, rfl, rfl⟩⟩)

end Baselib.Data.DataModelObject
