/-
Baselib.Core.BoostJsonTheorems — canonical texts tell values apart, and the
pretty text is the compact one with white space.

A text is read back from its front: its first octet tells the kind of the
value (`kind_serialize`), a number ends where no character of a number
follows and a string where its literal is closed, so that a value and what
comes after it are both determined (`serialize_injective`). Canonical values
are equal exactly when the values are equal up to the order of the members.
-/
import Mathlib.Data.Nat.Digits.Defs
import Baselib.Core.BoostJson

namespace Baselib.Core.BoostJson

open Lib List
open Transition (run run_cons_eq_some)

variable {δ : Type} {serializer : Serializer δ}

/-! ## Values up to order -/

mutual

/-- Two values are equal up to the order of the members of objects: two
objects have equally many members, and each of the first one has its
counterpart under the same key in the second. -/
def SameUpToOrder : Value δ → Value δ → Prop
  | .array items, .array items' => SameItems items items'
  | .object members, .object members' =>
    members.length = members'.length ∧ SameMembers members members'
  | v, w => v = w

def SameItems : List (Value δ) → List (Value δ) → Prop
  | [], [] => True
  | item :: items, item' :: items' => SameUpToOrder item item' ∧ SameItems items items'
  | _, _ => False

def SameMembers : List (Octets × Value δ) → List (Octets × Value δ) → Prop
  | [], _ => True
  | (key, v) :: members, members' =>
    (∃ v', (key, v') ∈ members' ∧ SameUpToOrder v v') ∧ SameMembers members members'

end

theorem UniqueKeysMembers.of_mem : ∀ {members : List (Octets × Value δ)} {key : Octets}
    {v : Value δ}, UniqueKeysMembers members → (key, v) ∈ members → UniqueKeys v
  | (_, _) :: members, key, v, h, hmem => by
      rcases mem_cons.mp hmem with heq | hmem
      · cases heq
        exact h.1
      · exact of_mem h.2 hmem

/-! ## The order of members -/

theorem keyOctets_injective : Function.Injective keyOctets :=
  map_injective_iff.mpr fun _ _ h => UInt8.toNat_inj.mp h

theorem sortMembers_perm {α : Type} (members : List (Octets × α)) :
    (sortMembers members).Perm members := perm_insertionSort _ _

/-- Members with a key each are sorted alike in every order. -/
theorem sortMembers_eq_iff {α : Type} {members members' : List (Octets × α)}
    (hnodup : (members.map Prod.fst).Nodup) :
    sortMembers members = sortMembers members' ↔ members.Perm members' := by
  constructor
  · intro h
    exact (sortMembers_perm members).symm.trans (h ▸ sortMembers_perm members')
  · intro h
    have hdetermined := (sort_determined_iff (fun member : Octets × α => keyOctets member.1)
      hnodup.of_map).mpr fun a ha b hb hkey =>
        inj_on_of_nodup_map hnodup ha hb (keyOctets_injective hkey)
    exact hdetermined _ (isSort_insertionSort _) members members' (List.Perm.refl _) h.symm

theorem perm_iff_of_nodup {α : Type} {l l' : List α} (hl : l.Nodup) :
    l.Perm l' ↔ l.length = l'.length ∧ ∀ a ∈ l, a ∈ l' := by
  constructor
  · exact fun h => ⟨h.length_eq, fun a ha => h.mem_iff.mp ha⟩
  · rintro ⟨hlength, hsubset⟩
    exact (hl.subperm hsubset).perm_of_length_le (Nat.le_of_eq hlength.symm)

/-! ## Canonical values -/

theorem canonicalizeMembers_eq (members : List (Octets × Value δ)) :
    canonicalizeMembers members =
      members.map fun member => (member.1, canonicalizeValue member.2) := by
  induction members with
  | nil => rfl
  | cons member members ih => rw [canonicalizeMembers, ih, map_cons]

theorem map_fst_canonicalizeMembers (members : List (Octets × Value δ)) :
    (canonicalizeMembers members).map Prod.fst = members.map Prod.fst := by
  rw [canonicalizeMembers_eq, List.map_map]
  rfl

theorem mem_canonicalizeMembers {members : List (Octets × Value δ)} {key : Octets}
    {v : Value δ} : (key, v) ∈ canonicalizeMembers members ↔
      ∃ v', (key, v') ∈ members ∧ v = canonicalizeValue v' := by
  rw [canonicalizeMembers_eq, mem_map]
  constructor
  · rintro ⟨⟨key', v'⟩, hmem, heq⟩
    cases heq
    exact ⟨v', hmem, rfl⟩
  · rintro ⟨v', hmem, rfl⟩
    exact ⟨(key, v'), hmem, rfl⟩

theorem canonicalizeObject_eq_iff {members members' : List (Octets × Value δ)}
    (hnodup : (members.map Prod.fst).Nodup) :
    sortMembers (canonicalizeMembers members) = sortMembers (canonicalizeMembers members') ↔
      members.length = members'.length ∧
        ∀ a ∈ canonicalizeMembers members, a ∈ canonicalizeMembers members' := by
  have hkeys := (map_fst_canonicalizeMembers members).symm ▸ hnodup
  rw [sortMembers_eq_iff hkeys, perm_iff_of_nodup hkeys.of_map, canonicalizeMembers_eq,
    canonicalizeMembers_eq, length_map, length_map]

mutual

/-- Canonical values are equal exactly when the values are equal up to the
order of the members. -/
theorem canonicalizeValue_eq_iff : ∀ {v w : Value δ}, UniqueKeys v → UniqueKeys w →
    (canonicalizeValue v = canonicalizeValue w ↔ SameUpToOrder v w)
  | .array items, w, hv, hw => by
      cases w with
      | array items' =>
        rw [canonicalizeValue, canonicalizeValue, SameUpToOrder, Value.array.injEq]
        exact canonicalizeItems_eq_iff hv hw
      | _ => simp [canonicalizeValue, SameUpToOrder]
  | .object members, w, hv, hw => by
      cases w with
      | object members' =>
        rw [canonicalizeValue, canonicalizeValue, SameUpToOrder, Value.object.injEq,
          canonicalizeObject_eq_iff hv.1]
        exact and_congr_right fun _ => canonicalizeMembers_subset_iff hv.2 hw.2
      | _ => simp [canonicalizeValue, SameUpToOrder]
  | .null, w, _, _ => by cases w <;> simp [canonicalizeValue, SameUpToOrder]
  | .bool _, w, _, _ => by cases w <;> simp [canonicalizeValue, SameUpToOrder]
  | .number _, w, _, _ => by cases w <;> simp [canonicalizeValue, SameUpToOrder]
  | .string _, w, _, _ => by cases w <;> simp [canonicalizeValue, SameUpToOrder]

theorem canonicalizeItems_eq_iff : ∀ {items items' : List (Value δ)},
    UniqueKeysItems items → UniqueKeysItems items' →
    (canonicalizeItems items = canonicalizeItems items' ↔ SameItems items items')
  | [], items', _, _ => by cases items' <;> simp [canonicalizeItems, SameItems]
  | item :: items, [], _, _ => by simp [canonicalizeItems, SameItems]
  | item :: items, item' :: items', h, h' => by
      rw [canonicalizeItems, canonicalizeItems, SameItems, List.cons.injEq,
        canonicalizeValue_eq_iff h.1 h'.1, canonicalizeItems_eq_iff h.2 h'.2]

theorem canonicalizeMembers_subset_iff : ∀ {members members' : List (Octets × Value δ)},
    UniqueKeysMembers members → UniqueKeysMembers members' →
    ((∀ a ∈ canonicalizeMembers members, a ∈ canonicalizeMembers members') ↔
      SameMembers members members')
  | [], members', _, _ => by simp [canonicalizeMembers, SameMembers]
  | (key, v) :: members, members', h, h' => by
      rw [canonicalizeMembers, SameMembers, forall_mem_cons,
        canonicalizeMembers_subset_iff h.2 h', mem_canonicalizeMembers]
      refine and_congr_left fun _ => exists_congr fun v' => and_congr_right fun hmem => ?_
      exact canonicalizeValue_eq_iff h.1 (h'.of_mem hmem)

end

/-! ## Reading a text from its front -/

/-- A literal ends at the first quote which is not escaped. -/
theorem literal_append_inj {body : Octets} : ∀ {isEscaped : Bool} {body' r r' : Octets},
    run literalStep isEscaped body = some false →
    run literalStep isEscaped body' = some false →
    body ++ '"'.toUInt8 :: r = body' ++ '"'.toUInt8 :: r' → body = body' ∧ r = r' := by
  have hcloses : literalStep false '"'.toUInt8 = none := by decide
  induction body with
  | nil =>
    intro isEscaped body' r r' hbody hbody' h
    cases hbody
    cases body' with
    | nil => exact ⟨rfl, (List.cons.inj h).2⟩
    | cons c body' =>
      obtain ⟨rfl, -⟩ := List.cons.inj h
      obtain ⟨m, hstep, -⟩ := run_cons_eq_some.mp hbody'
      rw [hcloses] at hstep
      cases hstep
  | cons c body ih =>
    intro isEscaped body' r r' hbody hbody' h
    obtain ⟨m, hstep, hbody⟩ := run_cons_eq_some.mp hbody
    cases body' with
    | nil =>
      cases hbody'
      obtain ⟨rfl, -⟩ := List.cons.inj h
      rw [hcloses] at hstep
      cases hstep
    | cons c' body' =>
      obtain ⟨rfl, hrest⟩ := List.cons.inj h
      obtain ⟨m', hstep', hbody'⟩ := run_cons_eq_some.mp hbody'
      obtain rfl := Option.some.inj (hstep.symm.trans hstep')
      obtain ⟨rfl, hr⟩ := ih hbody hbody' hrest
      exact ⟨rfl, hr⟩

theorem string_append_inj {s s' r r' : Octets}
    (h : serializer.string s ++ r = serializer.string s' ++ r') : s = s' ∧ r = r' := by
  obtain ⟨body, hs, hbody⟩ := serializer.string_literal s
  obtain ⟨body', hs', hbody'⟩ := serializer.string_literal s'
  rw [hs, hs', cons_append, cons_append, append_assoc, append_assoc] at h
  obtain ⟨rfl, hr⟩ := literal_append_inj hbody hbody' (List.cons.inj h).2
  exact ⟨serializer.string_injective (hs.trans hs'.symm), hr⟩

/-- No character of a number follows. -/
def EndsNumber (r : Octets) : Prop := ∀ c ∈ r.head?, isNumberCharacter c = false

theorem takeWhile_number {n r : Octets} (hn : ∀ c ∈ n, isNumberCharacter c) (hr : EndsNumber r) :
    (n ++ r).takeWhile isNumberCharacter = n := by
  rw [takeWhile_append_of_pos hn]
  cases r with
  | nil => simp
  | cons c r => simp [hr c rfl]

theorem number_append_inj {n n' : Number δ} {r r' : Octets}
    (hn : ∀ d, n = .double d → serializer.isFinite d)
    (hn' : ∀ d, n' = .double d → serializer.isFinite d) (hr : EndsNumber r) (hr' : EndsNumber r')
    (h : serializer.number n ++ r = serializer.number n' ++ r') : n = n' ∧ r = r' := by
  have htext : serializer.number n = serializer.number n' := by
    rw [← takeWhile_number (serializer.number_text n hn).2 hr, h,
      takeWhile_number (serializer.number_text n' hn').2 hr']
  rw [htext] at h
  exact ⟨serializer.number_injective n n' hn hn' htext, append_cancel_left h⟩

/-- The kinds of values which texts tell apart by their first octet, and what
else can stand there. -/
inductive Kind where
  | null
  | true
  | false
  | number
  | string
  | array
  | object
  | other
  deriving DecidableEq

def kindOf (c : UInt8) : Kind :=
  if c = 'n'.toUInt8 then .null
  else if c = 't'.toUInt8 then .true
  else if c = 'f'.toUInt8 then .false
  else if c = '"'.toUInt8 then .string
  else if c = '['.toUInt8 then .array
  else if c = '\x7b'.toUInt8 then .object
  else if isNumberCharacter c then .number
  else .other

def Value.kind : Value δ → Kind
  | .null => .null
  | .bool true => .true
  | .bool false => .false
  | .number _ => .number
  | .string _ => .string
  | .array _ => .array
  | .object _ => .object

theorem kindOf_number {c : UInt8} (h : isNumberCharacter c) : kindOf c = .number := by
  have hne : ∀ c', isNumberCharacter c' = false → c ≠ c' := fun c' hc' heq => by
    rw [heq, hc'] at h
    cases h
  unfold kindOf
  rw [if_neg (hne _ (by decide)), if_neg (hne _ (by decide)), if_neg (hne _ (by decide)),
    if_neg (hne _ (by decide)), if_neg (hne _ (by decide)), if_neg (hne _ (by decide)), if_pos h]

theorem kind_serialize {v : Value δ} (hv : isWritable serializer v) :
    ∃ c t, serialize serializer v = c :: t ∧ kindOf c = v.kind := by
  match v with
  | .null => exact ⟨'n'.toUInt8, _, rfl, rfl⟩
  | .bool true => exact ⟨'t'.toUInt8, _, rfl, rfl⟩
  | .bool false => exact ⟨'f'.toUInt8, _, rfl, rfl⟩
  | .number n =>
    obtain ⟨hne, htext⟩ := serializer.number_text n fun d hd => by subst hd; exact hv
    obtain ⟨c, t, hn⟩ := exists_cons_of_ne_nil hne
    exact ⟨c, t, by rw [serialize, hn], kindOf_number (htext c (hn ▸ mem_cons_self))⟩
  | .string s =>
    obtain ⟨body, hs, -⟩ := serializer.string_literal s
    exact ⟨'"'.toUInt8, _, by rw [serialize, hs]; rfl, rfl⟩
  | .array [] => exact ⟨'['.toUInt8, _, rfl, rfl⟩
  | .array (_ :: _) => exact ⟨'['.toUInt8, _, by rw [serialize], rfl⟩
  | .object [] => exact ⟨'\x7b'.toUInt8, _, rfl, rfl⟩
  | .object ((_, _) :: _) => exact ⟨'\x7b'.toUInt8, _, by rw [serialize], rfl⟩

theorem kind_eq_of_append {v w : Value δ} {r r' : Octets} (hv : isWritable serializer v)
    (hw : isWritable serializer w)
    (h : serialize serializer v ++ r = serialize serializer w ++ r') : v.kind = w.kind := by
  obtain ⟨c, t, hc, hkind⟩ := kind_serialize hv
  obtain ⟨c', t', hc', hkind'⟩ := kind_serialize hw
  rw [hc, hc'] at h
  rw [← hkind, ← hkind', (List.cons.inj h).1]

/-- A value does not begin with the end of a container. -/
theorem serialize_ne_close {v : Value δ} {close : UInt8} {r r' : Octets}
    (hv : isWritable serializer v) (hclose : kindOf close = .other) :
    close :: r ≠ serialize serializer v ++ r' := by
  intro h
  obtain ⟨c, t, hc, hkind⟩ := kind_serialize hv
  rw [hc] at h
  rw [(List.cons.inj h).1, hkind] at hclose
  match v with
  | .null | .bool true | .bool false | .number _ | .string _ | .array _ | .object _ => cases hclose

theorem endsNumber_serializeItems (items : List (Value δ)) (r : Octets) :
    EndsNumber (serializeItems serializer items ++ r) := by
  intro c hc
  cases items with
  | nil =>
    cases hc
    rfl
  | cons item items =>
    rw [serializeItems] at hc
    cases hc
    rfl

theorem endsNumber_serializeMembers (members : List (Octets × Value δ)) (r : Octets) :
    EndsNumber (serializeMembers serializer members ++ r) := by
  intro c hc
  cases members with
  | nil =>
    cases hc
    rfl
  | cons member members =>
    rw [serializeMembers] at hc
    cases hc
    rfl

theorem isWritable_array_cons {item : Value δ} {items : List (Value δ)} :
    isWritableItems serializer (item :: items) ↔
      isWritable serializer item ∧ isWritableItems serializer items := by
  rw [isWritableItems, Bool.and_eq_true]

theorem isWritable_object_cons {key : Octets} {v : Value δ} {members : List (Octets × Value δ)} :
    isWritableMembers serializer ((key, v) :: members) ↔
      isWritable serializer v ∧ isWritableMembers serializer members := by
  rw [isWritableMembers, Bool.and_eq_true]

/-- An array is the list of its items but for the first octet. -/
theorem serializeArray_append_inj {items items' : List (Value δ)} {r r' : Octets}
    (hv : isWritableItems serializer items) (hw : isWritableItems serializer items')
    (hitems : serializeItems serializer items ++ r = serializeItems serializer items' ++ r' →
      items = items' ∧ r = r')
    (h : serialize serializer (.array items) ++ r = serialize serializer (.array items') ++ r') :
    items = items' ∧ r = r' := by
  match items, items' with
  | [], [] => exact ⟨rfl, append_cancel_left h⟩
  | [], _ :: _ =>
    rw [serialize, serialize, cons_append, append_assoc] at h
    exact absurd (List.cons.inj h).2 (serialize_ne_close (isWritable_array_cons.mp hw).1 (by decide))
  | _ :: _, [] =>
    rw [serialize, serialize, cons_append, append_assoc] at h
    exact absurd (List.cons.inj h).2.symm
      (serialize_ne_close (isWritable_array_cons.mp hv).1 (by decide))
  | _ :: _, _ :: _ =>
    rw [serialize, serialize] at h
    rw [serializeItems, serializeItems] at hitems
    exact hitems (congrArg (_ :: ·) (List.cons.inj h).2)

theorem serializeObject_append_inj {members members' : List (Octets × Value δ)} {r r' : Octets}
    (hmembers : serializeMembers serializer members ++ r =
      serializeMembers serializer members' ++ r' → members = members' ∧ r = r')
    (h : serialize serializer (.object members) ++ r =
      serialize serializer (.object members') ++ r') : members = members' ∧ r = r' := by
  match members, members' with
  | [], [] => exact ⟨rfl, append_cancel_left h⟩
  | [], (key', _) :: _ =>
    obtain ⟨body, hkey, -⟩ := serializer.string_literal key'
    rw [serialize, serialize, hkey] at h
    cases (List.cons.inj (List.cons.inj h).2).1
  | (key, _) :: _, [] =>
    obtain ⟨body, hkey, -⟩ := serializer.string_literal key
    rw [serialize, serialize, hkey] at h
    cases (List.cons.inj (List.cons.inj h).2).1
  | (_, _) :: _, (_, _) :: _ =>
    rw [serialize, serialize] at h
    rw [serializeMembers, serializeMembers] at hmembers
    exact hmembers (congrArg (_ :: ·) (List.cons.inj h).2)

mutual

/-- A value and what comes after it are determined by the text. -/
theorem serialize_append_inj : ∀ {v w : Value δ} {r r' : Octets}, isWritable serializer v →
    isWritable serializer w → EndsNumber r → EndsNumber r' →
    serialize serializer v ++ r = serialize serializer w ++ r' → v = w ∧ r = r'
  | .null, w, r, r', hv, hw, hr, hr', h => by
      have hkind := kind_eq_of_append hv hw h
      match w with
      | .null => exact ⟨rfl, append_cancel_left h⟩
      | .bool true | .bool false | .number _ | .string _ | .array _ | .object _ => cases hkind
  | .bool b, w, r, r', hv, hw, hr, hr', h => by
      have hkind := kind_eq_of_append hv hw h
      match b, w with
      | true, .bool true => exact ⟨rfl, append_cancel_left h⟩
      | false, .bool false => exact ⟨rfl, append_cancel_left h⟩
      | true, .bool false | true, .null | true, .number _ | true, .string _ | true, .array _
      | true, .object _ => cases hkind
      | false, .bool true | false, .null | false, .number _ | false, .string _ | false, .array _
      | false, .object _ => cases hkind
  | .number n, w, r, r', hv, hw, hr, hr', h => by
      have hkind := kind_eq_of_append hv hw h
      match w with
      | .number n' =>
        obtain ⟨rfl, hrest⟩ := number_append_inj (fun d hd => by subst hd; exact hv)
          (fun d hd => by subst hd; exact hw) hr hr' h
        exact ⟨rfl, hrest⟩
      | .null | .bool true | .bool false | .string _ | .array _ | .object _ => cases hkind
  | .string s, w, r, r', hv, hw, hr, hr', h => by
      have hkind := kind_eq_of_append hv hw h
      match w with
      | .string s' =>
        obtain ⟨rfl, hrest⟩ := string_append_inj h
        exact ⟨rfl, hrest⟩
      | .null | .bool true | .bool false | .number _ | .array _ | .object _ => cases hkind
  | .array items, w, r, r', hv, hw, hr, hr', h => by
      have hkind := kind_eq_of_append hv hw h
      match w with
      | .array items' =>
        obtain ⟨rfl, hrest⟩ :=
          serializeArray_append_inj hv hw (fun h => serializeItems_append_inj hv hw h) h
        exact ⟨rfl, hrest⟩
      | .null | .bool true | .bool false | .number _ | .string _ | .object _ => cases hkind
  | .object members, w, r, r', hv, hw, hr, hr', h => by
      have hkind := kind_eq_of_append hv hw h
      match w with
      | .object members' =>
        obtain ⟨rfl, hrest⟩ :=
          serializeObject_append_inj (fun h => serializeMembers_append_inj hv hw h) h
        exact ⟨rfl, hrest⟩
      | .null | .bool true | .bool false | .number _ | .string _ | .array _ => cases hkind

theorem serializeItems_append_inj : ∀ {items items' : List (Value δ)} {r r' : Octets},
    isWritableItems serializer items → isWritableItems serializer items' →
    serializeItems serializer items ++ r = serializeItems serializer items' ++ r' →
    items = items' ∧ r = r'
  | [], [], r, r', _, _, h => ⟨rfl, append_cancel_left h⟩
  | [], item' :: items', r, r', _, _, h => by
      rw [serializeItems, serializeItems] at h
      cases (List.cons.inj h).1
  | item :: items, [], r, r', _, _, h => by
      rw [serializeItems, serializeItems] at h
      cases (List.cons.inj h).1
  | item :: items, item' :: items', r, r', hv, hw, h => by
      rw [serializeItems, serializeItems, cons_append, cons_append, append_assoc,
        append_assoc] at h
      obtain ⟨hfirst, hvs⟩ := isWritable_array_cons.mp hv
      obtain ⟨hfirst', hws⟩ := isWritable_array_cons.mp hw
      obtain ⟨rfl, hrest⟩ := serialize_append_inj hfirst hfirst' (endsNumber_serializeItems items r)
        (endsNumber_serializeItems items' r') (List.cons.inj h).2
      obtain ⟨rfl, hr⟩ := serializeItems_append_inj hvs hws hrest
      exact ⟨rfl, hr⟩

theorem serializeMembers_append_inj : ∀ {members members' : List (Octets × Value δ)}
    {r r' : Octets}, isWritableMembers serializer members →
    isWritableMembers serializer members' →
    serializeMembers serializer members ++ r = serializeMembers serializer members' ++ r' →
    members = members' ∧ r = r'
  | [], [], r, r', _, _, h => ⟨rfl, append_cancel_left h⟩
  | [], (key', v') :: members', r, r', _, _, h => by
      rw [serializeMembers, serializeMembers] at h
      cases (List.cons.inj h).1
  | (key, v) :: members, [], r, r', _, _, h => by
      rw [serializeMembers, serializeMembers] at h
      cases (List.cons.inj h).1
  | (key, v) :: members, (key', v') :: members', r, r', hv, hw, h => by
      rw [serializeMembers, serializeMembers] at h
      simp only [cons_append, append_assoc] at h
      obtain ⟨hfirst, hvs⟩ := isWritable_object_cons.mp hv
      obtain ⟨hfirst', hws⟩ := isWritable_object_cons.mp hw
      obtain ⟨rfl, hvalue⟩ := string_append_inj (List.cons.inj h).2
      obtain ⟨rfl, hrest⟩ := serialize_append_inj hfirst hfirst'
        (endsNumber_serializeMembers members r) (endsNumber_serializeMembers members' r')
        (List.cons.inj hvalue).2
      obtain ⟨rfl, hr⟩ := serializeMembers_append_inj hvs hws hrest
      exact ⟨rfl, hr⟩

end

theorem serialize_injective {v w : Value δ} (hv : isWritable serializer v)
    (hw : isWritable serializer w) (h : serialize serializer v = serialize serializer w) :
    v = w := by
  have hend : EndsNumber [] := nofun
  exact (serialize_append_inj hv hw hend hend (congrArg (· ++ []) h)).1

/-! ## White space -/

def isWhiteSpace (c : UInt8) : Bool :=
  c = ' '.toUInt8 ∨ c = '\t'.toUInt8 ∨ c = '\n'.toUInt8 ∨ c = '\r'.toUInt8

/-- Where a text is read: outside of strings, or in one. -/
inductive Place where
  | outside
  | inside (isEscaped : Bool)

def Place.next : Place → UInt8 → Place
  | .outside, c => if c = '"'.toUInt8 then .inside false else .outside
  | .inside isEscaped, c =>
    match literalStep isEscaped c with
    | some isEscaped => .inside isEscaped
    | none => .outside

/-- A text without the white space outside of strings. -/
def stripSpace : Place → Octets → Octets
  | _, [] => []
  | .outside, c :: rest =>
    if isWhiteSpace c then stripSpace .outside rest
    else c :: stripSpace (Place.outside.next c) rest
  | .inside isEscaped, c :: rest => c :: stripSpace ((Place.inside isEscaped).next c) rest

theorem stripSpace_append {text : Octets} (h : '"'.toUInt8 ∉ text) (r : Octets) :
    stripSpace .outside (text ++ r) =
      text.filter (fun c => !isWhiteSpace c) ++ stripSpace .outside r := by
  induction text with
  | nil => rfl
  | cons c text ih =>
    obtain ⟨hc, htext⟩ := ne_and_not_mem_of_not_mem_cons h
    rw [cons_append, stripSpace, ih htext]
    split
    next hspace => rw [filter_cons_of_neg (by simp [hspace])]
    next hspace =>
      rw [filter_cons_of_pos (by simp [hspace]), Place.next, if_neg (Ne.symm hc), ih htext]
      rfl

theorem stripSpace_octets (text : String) (h : '"'.toUInt8 ∉ octets text) (r : Octets) :
    stripSpace .outside (octets text ++ r) =
      (octets text).filter (fun c => !isWhiteSpace c) ++ stripSpace .outside r :=
  stripSpace_append h r

theorem stripSpace_literal {body : Octets} (r : Octets) : ∀ {isEscaped : Bool},
    run literalStep isEscaped body = some false →
    stripSpace (.inside isEscaped) (body ++ '"'.toUInt8 :: r) =
      body ++ '"'.toUInt8 :: stripSpace .outside r := by
  induction body with
  | nil =>
    intro isEscaped h
    cases h
    rfl
  | cons c body ih =>
    intro isEscaped h
    obtain ⟨m, hstep, h⟩ := run_cons_eq_some.mp h
    rw [cons_append, stripSpace, Place.next, hstep]
    rw [ih h]
    rfl

theorem stripSpace_string (s r : Octets) :
    stripSpace .outside (serializer.string s ++ r) =
      serializer.string s ++ stripSpace .outside r := by
  obtain ⟨body, hs, hbody⟩ := serializer.string_literal s
  rw [hs, cons_append, cons_append, append_assoc]
  refine (congrArg _ (stripSpace_literal r hbody)).trans ?_
  rw [cons_append, append_assoc]
  rfl

theorem stripSpace_number {n : Number δ} (hn : isWritable serializer (.number n)) (r : Octets) :
    stripSpace .outside (serializer.number n ++ r) =
      serializer.number n ++ stripSpace .outside r := by
  obtain ⟨-, htext⟩ := serializer.number_text n fun d hd => by subst hd; exact hn
  have hspace : ∀ c, isWhiteSpace c = true → isNumberCharacter c = false := by
    intro c hc
    rcases of_decide_eq_true hc with rfl | rfl | rfl | rfl <;> rfl
  have hquote : '"'.toUInt8 ∉ serializer.number n := fun hmem => by
    have := htext _ hmem
    cases this
  rw [stripSpace_append hquote, filter_eq_self.mpr fun c hc => ?_]
  cases hc' : isWhiteSpace c with
  | false => rfl
  | true => exact absurd (htext c hc) (by simp [hspace c hc'])

theorem stripSpace_spaces (n : Nat) (r : Octets) :
    stripSpace .outside (spaces n ++ r) = stripSpace .outside r := by
  have hquote : '"'.toUInt8 ∉ spaces n := fun hmem => by
    cases eq_of_mem_replicate hmem
  have hfilter : (spaces n).filter (fun c => !isWhiteSpace c) = [] := by
    rw [filter_eq_nil_iff]
    intro c hc
    rw [eq_of_mem_replicate hc]
    decide
  rw [stripSpace_append hquote, hfilter]
  rfl

mutual

/-- The pretty text is the compact one with white space. -/
theorem stripSpace_prettyPrintImpl : ∀ {v : Value δ} (indent : Nat) (r : Octets),
    isWritable serializer v →
    stripSpace .outside (prettyPrintImpl serializer indent v ++ r) =
      serialize serializer v ++ stripSpace .outside r
  | .null, _, _, _ => rfl
  | .bool true, _, _, _ => rfl
  | .bool false, _, _, _ => rfl
  | .number _, _, r, hv => stripSpace_number hv r
  | .string s, _, r, _ => stripSpace_string s r
  | .array [], _, _, _ => rfl
  | .array (item :: items), indent, r, hv => by
      obtain ⟨hfirst, hrest⟩ := isWritable_array_cons.mp hv
      rw [prettyPrintImpl, serialize]
      simp only [append_assoc, cons_append]
      rw [stripSpace_octets "[\n" (by decide), stripSpace_spaces,
        stripSpace_prettyPrintImpl _ _ hfirst, stripSpace_prettyPrintItems _ _ hrest]
      rfl
  | .object [], _, _, _ => rfl
  | .object ((key, v) :: members), indent, r, hv => by
      have hv : isWritableMembers serializer ((key, v) :: members) := hv
      obtain ⟨hfirst, hrest⟩ := isWritable_object_cons.mp hv
      rw [prettyPrintImpl, serialize]
      simp only [append_assoc, cons_append]
      rw [stripSpace_octets "\x7b\n" (by decide), stripSpace_spaces,
        stripSpace_string, stripSpace_octets ": " (by decide),
        stripSpace_prettyPrintImpl _ _ hfirst, stripSpace_prettyPrintMembers _ _ hrest]
      rfl

theorem stripSpace_prettyPrintItems : ∀ {items : List (Value δ)} (indent : Nat) (r : Octets),
    isWritableItems serializer items →
    stripSpace .outside (prettyPrintItems serializer indent items ++ r) =
      serializeItems serializer items ++ stripSpace .outside r
  | [], indent, r, _ => by
      rw [prettyPrintItems, serializeItems]
      simp only [append_assoc]
      rw [stripSpace_octets "\n" (by decide), stripSpace_spaces,
        stripSpace_octets "]" (by decide)]
      rfl
  | item :: items, indent, r, h => by
      obtain ⟨hfirst, hrest⟩ := isWritable_array_cons.mp h
      rw [prettyPrintItems, serializeItems]
      simp only [append_assoc, cons_append]
      rw [stripSpace_octets ",\n" (by decide), stripSpace_spaces,
        stripSpace_prettyPrintImpl _ _ hfirst, stripSpace_prettyPrintItems _ _ hrest]
      rfl

theorem stripSpace_prettyPrintMembers : ∀ {members : List (Octets × Value δ)} (indent : Nat)
    (r : Octets), isWritableMembers serializer members →
    stripSpace .outside (prettyPrintMembers serializer indent members ++ r) =
      serializeMembers serializer members ++ stripSpace .outside r
  | [], indent, r, _ => by
      rw [prettyPrintMembers, serializeMembers]
      simp only [append_assoc]
      rw [stripSpace_octets "\n" (by decide), stripSpace_spaces,
        stripSpace_octets "\x7d" (by decide)]
      rfl
  | (key, v) :: members, indent, r, h => by
      obtain ⟨hfirst, hrest⟩ := isWritable_object_cons.mp h
      rw [prettyPrintMembers, serializeMembers]
      simp only [append_assoc, cons_append]
      rw [stripSpace_octets ",\n" (by decide), stripSpace_spaces,
        stripSpace_string, stripSpace_octets ": " (by decide),
        stripSpace_prettyPrintImpl _ _ hfirst, stripSpace_prettyPrintMembers _ _ hrest]
      rfl

end

/-! ## Saving -/

theorem isWritableMembers_iff : ∀ {members : List (Octets × Value δ)},
    isWritableMembers serializer members ↔ ∀ member ∈ members, isWritable serializer member.2
  | [] => by simp [isWritableMembers]
  | (key, v) :: members => by
      rw [isWritable_object_cons, isWritableMembers_iff, forall_mem_cons]

mutual

/-- A canonical value holds the doubles of the value. -/
theorem isWritable_canonicalizeValue : ∀ {v : Value δ}, isWritable serializer v →
    isWritable serializer (canonicalizeValue v)
  | .null, h => h
  | .bool _, h => h
  | .number _, h => h
  | .string _, h => h
  | .array items, h => by
      have h : isWritableItems serializer items := h
      exact isWritable_canonicalizeItems h
  | .object members, h => by
      have hmembers : isWritableMembers serializer (canonicalizeMembers members) :=
        isWritable_canonicalizeMembers h
      rw [isWritableMembers_iff] at hmembers
      refine isWritableMembers_iff.mpr fun member hmember => hmembers member ?_
      exact (sortMembers_perm _).mem_iff.mp hmember

theorem isWritable_canonicalizeItems : ∀ {items : List (Value δ)},
    isWritableItems serializer items → isWritableItems serializer (canonicalizeItems items)
  | [], h => h
  | item :: items, h => by
      obtain ⟨hfirst, hrest⟩ := isWritable_array_cons.mp h
      exact isWritable_array_cons.mpr
        ⟨isWritable_canonicalizeValue hfirst, isWritable_canonicalizeItems hrest⟩

theorem isWritable_canonicalizeMembers : ∀ {members : List (Octets × Value δ)},
    isWritableMembers serializer members →
    isWritableMembers serializer (canonicalizeMembers members)
  | [], h => h
  | (key, v) :: members, h => by
      obtain ⟨hfirst, hrest⟩ := isWritable_object_cons.mp h
      exact isWritable_object_cons.mpr
        ⟨isWritable_canonicalizeValue hfirst, isWritable_canonicalizeMembers hrest⟩

end

theorem saveToString_eq {val : Document δ} {isPrettyPrint canonicalize : Bool}
    (hboth : (canonicalize && isPrettyPrint) = false) :
    saveToString serializer val isPrettyPrint canonicalize =
      if isWritable serializer val.value then
        .ok (if canonicalize then serialize serializer (canonicalizeValue val.value)
          else if isPrettyPrint then prettyPrint serializer val.value
          else serialize serializer val.value)
      else .error .nonFinite := by
  unfold saveToString
  rw [hboth]
  cases isWritable serializer val.value <;> cases canonicalize <;> cases isPrettyPrint <;> rfl

theorem saveToString_eq_ok {val : Document δ} {isPrettyPrint canonicalize : Bool} {text : Octets}
    (hboth : (canonicalize && isPrettyPrint) = false)
    (h : saveToString serializer val isPrettyPrint canonicalize = .ok text) :
    isWritable serializer val.value = true ∧
      text = if canonicalize then serialize serializer (canonicalizeValue val.value)
        else if isPrettyPrint then prettyPrint serializer val.value
        else serialize serializer val.value := by
  rw [saveToString_eq hboth] at h
  split at h
  next hwritable => exact ⟨hwritable, (Except.ok.inj h).symm⟩
  next => cases h

/-- Canonical texts are equal exactly when the values are equal up to the order
of the members; a pretty text is the compact one with white space; and every
value with finite doubles only has its texts. -/
theorem saveToString_canonical (serializer : Serializer δ) (val val' : Document δ) :
    (∀ text text', saveToString serializer val false true = .ok text →
      saveToString serializer val' false true = .ok text' →
      (text = text' ↔ SameUpToOrder val.value val'.value)) ∧
    (∀ text, saveToString serializer val true false = .ok text →
      saveToString serializer val false false = .ok (stripSpace .outside text)) ∧
    ∀ isPrettyPrint canonicalize, (canonicalize && isPrettyPrint) = false →
      ((∃ text, saveToString serializer val isPrettyPrint canonicalize = .ok text) ↔
        isWritable serializer val.value) := by
  refine ⟨fun text text' h h' => ?_, fun text h => ?_, fun isPrettyPrint canonicalize hboth => ?_⟩
  · obtain ⟨hwritable, rfl⟩ := saveToString_eq_ok rfl h
    obtain ⟨hwritable', rfl⟩ := saveToString_eq_ok rfl h'
    rw [if_pos rfl, if_pos rfl, ← canonicalizeValue_eq_iff val.uniqueKeys val'.uniqueKeys]
    constructor
    · exact serialize_injective (isWritable_canonicalizeValue hwritable)
        (isWritable_canonicalizeValue hwritable')
    · exact congrArg _
  · obtain ⟨hwritable, rfl⟩ := saveToString_eq_ok rfl h
    have hstrip := stripSpace_prettyPrintImpl 0 [] hwritable
    rw [List.append_nil, stripSpace, List.append_nil] at hstrip
    rw [saveToString_eq rfl, if_pos hwritable]
    exact congrArg _ hstrip.symm
  · constructor
    · rintro ⟨text, h⟩
      exact (saveToString_eq_ok hboth h).1
    · intro hwritable
      rw [saveToString_eq hboth, if_pos hwritable]
      exact ⟨_, rfl⟩

/-! ## A serializer -/

/-- As boost escapes a text without control characters. -/
def escapeCharacter (c : UInt8) : Octets :=
  if c = '"'.toUInt8 ∨ c = '\\'.toUInt8 then ['\\'.toUInt8, c] else [c]

theorem run_escapeCharacter (s : Octets) :
    run literalStep false (s.flatMap escapeCharacter) = some false := by
  induction s with
  | nil => rfl
  | cons c s ih =>
    rw [flatMap_cons, Transition.run_append_eq_some]
    refine ⟨false, ?_, ih⟩
    unfold escapeCharacter
    split
    · rfl
    next hplain =>
      obtain ⟨hquote, hsolidus⟩ := not_or.mp hplain
      simp [run, literalStep, hquote, hsolidus]

theorem flatMap_escapeCharacter_injective : ∀ {s s' : Octets},
    s.flatMap escapeCharacter = s'.flatMap escapeCharacter → s = s'
  | [], [], _ => rfl
  | [], c :: s', h => by
      rw [flatMap_nil, flatMap_cons, escapeCharacter] at h
      split at h <;> cases h
  | c :: s, [], h => by
      rw [flatMap_nil, flatMap_cons, escapeCharacter] at h
      split at h <;> cases h
  | c :: s, c' :: s', h => by
      rw [flatMap_cons, flatMap_cons, escapeCharacter, escapeCharacter] at h
      split at h <;> split at h
      · obtain ⟨rfl, hrest⟩ := List.cons.inj (List.cons.inj h).2
        rw [flatMap_escapeCharacter_injective hrest]
      next _ hplain => exact absurd (.inr (List.cons.inj h).1.symm) hplain
      next hplain _ => exact absurd (.inr (List.cons.inj h).1) hplain
      · obtain ⟨rfl, hrest⟩ := List.cons.inj h
        rw [flatMap_escapeCharacter_injective hrest]

def digitCharacter (d : Nat) : UInt8 := (48 + d).toUInt8

/-- The number the digits write. -/
def readDigits (text : Octets) : Nat := text.foldl (fun n c => n * 10 + (c.toNat - 48)) 0

def natText (n : Nat) : Octets :=
  if n = 0 then octets "0" else (Nat.digits 10 n).reverse.map digitCharacter

theorem toNat_digitCharacter {d : Nat} (h : d < 10) : (digitCharacter d).toNat = 48 + d := by
  rw [digitCharacter, Nat.toUInt8, UInt8.toNat_ofNat']
  omega

theorem readDigits_natText (n : Nat) : readDigits (natText n) = n := by
  unfold natText
  split
  next hzero => rw [hzero]; rfl
  next =>
    have hdigits : ∀ ds : List Nat, (∀ d ∈ ds, d < 10) →
        readDigits (ds.reverse.map digitCharacter) = Nat.ofDigits 10 ds := by
      intro ds
      induction ds with
      | nil => intro _; rfl
      | cons d ds ih =>
        intro hds
        obtain ⟨hd, hds⟩ := forall_mem_cons.mp hds
        rw [reverse_cons, map_append, readDigits, foldl_append, ← readDigits,
          ih hds, Nat.ofDigits_cons, map_singleton, foldl_cons, foldl_nil,
          toNat_digitCharacter hd]
        omega
    rw [hdigits _ fun d hd => Nat.digits_lt_base (by decide) hd, Nat.ofDigits_digits]

theorem natText_digits (n : Nat) :
    natText n ≠ [] ∧ ∀ c ∈ natText n, ∃ d < 10, c = digitCharacter d := by
  unfold natText
  split
  · refine ⟨by decide, fun c hc => ⟨0, by decide, ?_⟩⟩
    rw [mem_singleton.mp hc]
    rfl
  next hzero =>
    refine ⟨by simpa [Nat.digits_eq_nil_iff_eq_zero] using hzero, fun c hc => ?_⟩
    obtain ⟨d, hd, rfl⟩ := mem_map.mp hc
    exact ⟨d, Nat.digits_lt_base (by decide) (mem_reverse.mp hd), rfl⟩

/-- A double of one digit, which boost writes with an exponent. -/
def numberText : Number (Fin 10) → Octets
  | .integer n => if n < 0 then '-'.toUInt8 :: natText n.natAbs else natText n.natAbs
  | .double d => digitCharacter d :: octets "E0"

theorem isNumberCharacter_digit {d : Nat} (h : d < 10) : isNumberCharacter (digitCharacter d) := by
  have hall : ∀ d : Fin 10, isNumberCharacter (digitCharacter d) = true := by decide +kernel
  exact hall ⟨d, h⟩

theorem numberText_characters (n : Number (Fin 10)) :
    numberText n ≠ [] ∧ ∀ c ∈ numberText n, isNumberCharacter c := by
  have hnat : ∀ n : Nat, ∀ c ∈ natText n, isNumberCharacter c = true := fun n c hc => by
    obtain ⟨d, hd, rfl⟩ := (natText_digits n).2 c hc
    exact isNumberCharacter_digit hd
  cases n with
  | integer n =>
    rw [numberText]
    split
    · refine ⟨cons_ne_nil _ _, forall_mem_cons.mpr ⟨by decide, hnat _⟩⟩
    · exact ⟨(natText_digits _).1, hnat _⟩
  | double d =>
    refine ⟨cons_ne_nil _ _, forall_mem_cons.mpr
      ⟨isNumberCharacter_digit d.isLt, by decide +kernel⟩⟩

theorem not_mem_natText {c : UInt8} (hc : ∀ d < 10, digitCharacter d ≠ c) (n : Nat) :
    c ∉ natText n := by
  intro hmem
  obtain ⟨d, hd, rfl⟩ := (natText_digits n).2 c hmem
  exact hc d hd rfl

theorem not_mem_integerText (n : Int) : 'E'.toUInt8 ∉ numberText (.integer n) := by
  have hnat := not_mem_natText (c := 'E'.toUInt8) (by decide) n.natAbs
  rw [numberText]
  split
  · exact not_mem_cons_of_ne_of_not_mem (by decide) hnat
  · exact hnat

theorem numberText_injective : Function.Injective numberText := by
  have hdouble : ∀ d : Fin 10, 'E'.toUInt8 ∈ numberText (.double d) := fun d =>
    mem_cons_of_mem _ (by decide)
  have hminus : ∀ n m : Nat, '-'.toUInt8 :: natText n ≠ natText m := fun n m h =>
    not_mem_natText (c := '-'.toUInt8) (by decide) m (h ▸ mem_cons_self)
  have hnat : ∀ {n m : Nat}, natText n = natText m → n = m := fun {n m} h => by
    rw [← readDigits_natText n, h, readDigits_natText]
  intro n n' h
  cases n with
  | integer n =>
    cases n' with
    | integer n' =>
      rw [numberText, numberText] at h
      split at h <;> split at h
      · have habs := hnat (List.cons.inj h).2
        congr 1
        omega
      · exact absurd h (hminus _ _)
      · exact absurd h.symm (hminus _ _)
      · have habs := hnat h
        congr 1
        omega
    | double d' => exact absurd (h ▸ hdouble d') (not_mem_integerText n)
  | double d =>
    cases n' with
    | integer n' => exact absurd (h ▸ hdouble d) (not_mem_integerText n')
    | double d' =>
      have hfirst := (List.cons.inj h).1
      have hall : ∀ d d' : Fin 10, digitCharacter d = digitCharacter d' → d = d' := by decide
      rw [hall d d' hfirst]

/-- The doubles are those of one digit. -/
def digitSerializer : Serializer (Fin 10) where
  isFinite _ := true
  string s := '"'.toUInt8 :: s.flatMap escapeCharacter ++ ['"'.toUInt8]
  number := numberText
  string_literal s := ⟨_, rfl, run_escapeCharacter s⟩
  string_injective _ _ h :=
    flatMap_escapeCharacter_injective (append_cancel_right (List.cons.inj h).2)
  number_text n _ := numberText_characters n
  number_injective _ _ _ _ h := numberText_injective h

/-- An object and the same one with its members exchanged. -/
def twoMembers (isExchanged : Bool) : Document (Fin 10) where
  value :=
    let members := [(octets "b", .number (.double 2)), (octets "a", .array [.null, .object []])]
    .object (if isExchanged then members.reverse else members)
  uniqueKeys := by
    cases isExchanged
    · exact ⟨by decide, trivial, ⟨trivial, ⟨nodup_nil, trivial⟩, trivial⟩, trivial⟩
    · exact ⟨by decide, ⟨trivial, ⟨nodup_nil, trivial⟩, trivial⟩, trivial, trivial⟩

def twoMembersText : Octets := octets "\x7b\"a\":[null,\x7b\x7d],\"b\":2E0\x7d"

theorem twoMembers_canonical : SameUpToOrder (twoMembers false).value (twoMembers true).value :=
  ((saveToString_canonical digitSerializer (twoMembers false) (twoMembers true)).1 twoMembersText
    twoMembersText (by decide +kernel) (by decide +kernel)).mp rfl

end Baselib.Core.BoostJson
