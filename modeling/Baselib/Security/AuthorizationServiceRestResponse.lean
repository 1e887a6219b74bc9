/-
Baselib.Security.AuthorizationServiceRestResponse — what is read from the
response of an authorization service.

A pattern is tried on a line in the order of an unordered map, so the order
can only matter where two patterns match one line. Where none do, the map
which a line leaves behind is given without an order (`matchUnique_eq`). What
was found stands in lines of its own (`ReadFrom`), which the loop keeps line
by line.
-/
import Baselib.Lib.Checked
import Baselib.Security.AuthorizationServiceRest

namespace Baselib.Security.AuthorizationServiceRest

open Lib Lib.Checked Core.Str List
open Function (update update_of_ne update_self)

variable {config : Config} {order order' : IterationOrder} {f f' : UniqueProperties}
  {tokens tokens' : Properties} {content line : Octets}

/-! ## Lines -/

/-- The lines of a response which are not blank. -/
def responseLines (content : Octets) : List Octets :=
  ((linesOf content).map trim).filter (· ≠ [])

/-- A line which is not blank. -/
def readTrimmed (config : Config) (order : IterationOrder)
    (found : UniqueProperties × Properties) (line : Octets) :
    Except Exception (UniqueProperties × Properties) := do
  match ← matchUnique config found.1 line order.uniqueProperties with
  | some uniqueProperties => return (uniqueProperties, found.2)
  | none => return (found.1, ← matchToken config line found.2)

theorem readLine_eq (found : UniqueProperties × Properties) (line : Octets) :
    readLine config order found line =
      if trim line = [] then .ok found else readTrimmed config order found (trim line) := rfl

theorem readLines_eq (config : Config) (order : IterationOrder) (content : Octets) :
    readLines config order content =
      (responseLines content).foldlM (readTrimmed config order) (getUniqueProperties, []) := by
  have hlines : ∀ (lines : List Octets) (found : UniqueProperties × Properties),
      lines.foldlM (readLine config order) found =
        ((lines.map trim).filter (· ≠ [])).foldlM (readTrimmed config order) found := by
    intro lines
    induction lines with
    | nil => intro found; rfl
    | cons line lines ih =>
      intro found
      rw [foldlM_cons, map_cons, readLine_eq]
      by_cases hblank : trim line = []
      · rw [if_pos hblank, filter_cons_of_neg (by simpa using hblank)]
        exact ih found
      · rw [if_neg hblank, filter_cons_of_pos (by simpa using hblank), foldlM_cons]
        exact congrArg _ (funext ih)
  exact hlines _ _

/-! ## The patterns which match a line -/

/-- The pattern is tried, and matches. -/
def isCandidate (config : Config) (f : UniqueProperties) (line : Octets) (id : PropertyId) : Bool :=
  !(f id).isFound && (config.regex id line).isSome

def consume (config : Config) (f : UniqueProperties) (line : Octets) (id : PropertyId) :
    Except Exception (Option UniqueProperties) :=
  match config.regex id line with
  | some [value] => .ok (some (update f id ⟨(f id).isRequired, true, value⟩))
  | _ => .error oneGroupOnly

theorem matchUnique_eq (ids : List PropertyId) :
    matchUnique config f line ids =
      ((ids.find? (isCandidate config f line)).map (consume config f line)).getD (.ok none) := by
  induction ids with
  | nil => rfl
  | cons id ids ih =>
    rw [matchUnique, find?_cons]
    cases hfound : (f id).isFound with
    | true =>
      have hnot : isCandidate config f line id = false := by simp [isCandidate, hfound]
      rw [hnot]
      exact ih
    | false =>
      cases hmatch : config.regex id line with
      | none =>
        have hnot : isCandidate config f line id = false := by simp [isCandidate, hmatch]
        rw [hnot]
        exact ih
      | some groups =>
        have hcandidate : isCandidate config f line id = true := by
          simp [isCandidate, hfound, hmatch]
        rw [hcandidate]
        rcases groups with _ | ⟨value, _ | ⟨other, groups⟩⟩ <;> simp [consume, hmatch]

theorem consume_eq_ok {id : PropertyId} {r : Option UniqueProperties} :
    consume config f line id = .ok r ↔ ∃ value, config.regex id line = some [value] ∧
      r = some (update f id ⟨(f id).isRequired, true, value⟩) := by
  unfold consume
  split
  next value hmatch => simp [hmatch, eq_comm]
  next hnot =>
    constructor
    · nofun
    · rintro ⟨value, hmatch, -⟩
      exact absurd hmatch (hnot value)

/-- What is found first does not depend on the order if there is only one. -/
theorem find?_of_perm {α : Type} {p : α → Bool} {l l' : List α} (h : l.Perm l')
    (honly : ∀ a ∈ l, ∀ b ∈ l, p a → p b → a = b) : l.find? p = l'.find? p := by
  cases hfind : l.find? p with
  | none =>
    rw [find?_eq_none] at hfind
    exact (find?_eq_none.mpr fun a ha => hfind a (h.mem_iff.mpr ha)).symm
  | some a =>
    have ha := mem_of_find?_eq_some hfind
    cases hfind' : l'.find? p with
    | none =>
      have hnot := find?_eq_none.mp hfind' a (h.mem_iff.mp ha)
      exact absurd (find?_some hfind) hnot
    | some b =>
      have hb := h.mem_iff.mpr (mem_of_find?_eq_some hfind')
      rw [honly a ha b hb (find?_some hfind) (find?_some hfind')]

/-- No line is matched by the patterns of two of the unique properties. -/
def NoOverlap (config : Config) (content : Octets) : Prop :=
  ∀ line ∈ responseLines content, ∀ id ∈ uniquePropertyIds, ∀ id' ∈ uniquePropertyIds,
    (config.regex id line).isSome → (config.regex id' line).isSome → id = id'

theorem foldlM_congr_of_mem {ε α β : Type} {g g' : β → α → Except ε β} {l : List α}
    (h : ∀ a ∈ l, ∀ b, g b a = g' b a) (b : β) : l.foldlM g b = l.foldlM g' b := by
  induction l generalizing b with
  | nil => rfl
  | cons a l ih =>
    rw [foldlM_cons, foldlM_cons, h a mem_cons_self]
    exact congrArg _ (funext fun c => ih (fun a' ha' => h a' (mem_cons_of_mem a ha')) c)

theorem readLines_order (order order' : IterationOrder) (h : NoOverlap config content) :
    readLines config order content = readLines config order' content := by
  rw [readLines_eq, readLines_eq]
  refine foldlM_congr_of_mem (fun line hline found => ?_) _
  have hperm := order.uniqueProperties_perm.trans order'.uniqueProperties_perm.symm
  have hfind : order.uniqueProperties.find? (isCandidate config found.1 line) =
      order'.uniqueProperties.find? (isCandidate config found.1 line) := by
    refine find?_of_perm hperm fun id hid id' hid' hmatch hmatch' => ?_
    exact h line hline id (order.uniqueProperties_perm.mem_iff.mp hid) id'
      (order.uniqueProperties_perm.mem_iff.mp hid') (Bool.and_eq_true_iff.mp hmatch).2
      (Bool.and_eq_true_iff.mp hmatch').2
  rw [readTrimmed, readTrimmed, matchUnique_eq, matchUnique_eq, hfind]

/-! ## Where the properties stand -/

/-- The lines which the pattern matches are matched by no other one. -/
def Exclusive (config : Config) (lines : List Octets) (id : PropertyId) : Prop :=
  ∀ line ∈ lines, (config.regex id line).isSome →
    ∀ id' ∈ uniquePropertyIds, (config.regex id' line).isSome → id' = id

/-- What the lines so far have come to: a property which was found stands in a
line of its own, the first one its pattern matches if no other pattern does. -/
structure ReadFrom (config : Config) (lines : List Octets) (position : PropertyId → Nat)
    (f : UniqueProperties)
    (tokens : Properties) : Prop where
  required : ∀ id, (f id).isRequired = (getUniqueProperties id).isRequired
  stands : ∀ id, (f id).isFound = true → ∃ line, lines[position id]? = some line ∧
    config.regex id line = some [(f id).value]
  distinct : ∀ id id', (f id).isFound = true → (f id').isFound = true →
    position id = position id' → id = id'
  first : ∀ id, Exclusive config lines id → (f id).isFound = true →
    ∀ i < position id, ∀ line, lines[i]? = some line → config.regex id line = none
  missed : ∀ id ∈ uniquePropertyIds, Exclusive config lines id → (f id).isFound = false →
    ∀ line ∈ lines, config.regex id line = none
  nodup : (tokens.map Prod.fst).Nodup
  not_empty : ∀ pair ∈ tokens, pair.1 ≠ [] ∧ pair.2 ≠ []

theorem readFrom_nil (config : Config) (position : PropertyId → Nat) :
    ReadFrom config [] position getUniqueProperties [] := by
  have hnone : ∀ id, (getUniqueProperties id).isFound = false := fun id => by cases id <;> rfl
  exact
    { required := fun _ => rfl
      stands := fun id h => absurd ((hnone id).symm.trans h) nofun
      distinct := fun id _ h => absurd ((hnone id).symm.trans h) nofun
      first := fun id _ h => absurd ((hnone id).symm.trans h) nofun
      missed := fun _ _ _ _ _ h => absurd h not_mem_nil
      nodup := nodup_nil
      not_empty := fun _ h => absurd h not_mem_nil }

theorem Exclusive.of_append {lines : List Octets} {id : PropertyId}
    (h : Exclusive config (lines ++ [line]) id) : Exclusive config lines id :=
  fun other hother => h other (mem_append_left _ hother)

theorem Exclusive.last {lines : List Octets} {id : PropertyId}
    (h : Exclusive config (lines ++ [line]) id) (hmatch : (config.regex id line).isSome) :
    ∀ id' ∈ uniquePropertyIds, (config.regex id' line).isSome → id' = id :=
  h line (mem_append_right _ (mem_singleton.mpr rfl)) hmatch

variable {lines : List Octets} {position : PropertyId → Nat}

theorem ReadFrom.position_lt (h : ReadFrom config lines position f tokens) {id : PropertyId}
    (hfound : (f id).isFound = true) : position id < lines.length := by
  obtain ⟨other, hother, -⟩ := h.stands id hfound
  exact (List.getElem?_eq_some_iff.mp hother).1

/-- The line is the one a property stands in. -/
theorem ReadFrom.consume (h : ReadFrom config lines position f tokens) {id : PropertyId}
    {value : Octets} (hid : id ∈ uniquePropertyIds) (hnot : (f id).isFound = false)
    (hmatch : config.regex id line = some [value]) :
    ReadFrom config (lines ++ [line]) (update position id lines.length)
      (update f id ⟨(f id).isRequired, true, value⟩) tokens := by
  have hother : ∀ id', id' ≠ id → Exclusive config (lines ++ [line]) id' →
      config.regex id' line = none := fun id' hne hexclusive => by
    cases hmatch' : config.regex id' line with
    | none => rfl
    | some groups =>
      exact absurd (hexclusive.last (by rw [hmatch']; rfl) id hid (by rw [hmatch]; rfl)).symm hne
  refine
    { required := fun id' => ?_, stands := fun id' hfound => ?_,
      distinct := fun id' id'' hfound hfound' heq => ?_,
      first := fun id' hexclusive hfound i hi other hi' => ?_,
      missed := fun id' hid' hexclusive hmissed other hmem => ?_,
      nodup := h.nodup, not_empty := h.not_empty }
  · obtain rfl | hsame := eq_or_ne id' id
    · rw [update_self]
      exact h.required id'
    · rw [update_of_ne hsame]
      exact h.required id'
  · obtain rfl | hsame := eq_or_ne id' id
    · rw [update_self, update_self]
      exact ⟨line, getElem?_concat_length, hmatch⟩
    · rw [update_of_ne hsame] at hfound
      rw [update_of_ne hsame, update_of_ne hsame]
      obtain ⟨other, hother, hvalue⟩ := h.stands id' hfound
      exact ⟨other, getElem?_append_left (h.position_lt hfound) ▸ hother, hvalue⟩
  · by_cases hsame : id' = id <;> by_cases hsame' : id'' = id
    · rw [hsame, hsame']
    · rw [update_of_ne hsame'] at hfound'
      rw [hsame, update_self, update_of_ne hsame'] at heq
      exact absurd (h.position_lt hfound') (heq ▸ Nat.lt_irrefl _)
    · rw [update_of_ne hsame] at hfound
      rw [hsame', update_self, update_of_ne hsame] at heq
      exact absurd (h.position_lt hfound) (heq ▸ Nat.lt_irrefl _)
    · rw [update_of_ne hsame] at hfound
      rw [update_of_ne hsame'] at hfound'
      rw [update_of_ne hsame, update_of_ne hsame'] at heq
      exact h.distinct id' id'' hfound hfound' heq
  · obtain rfl | hsame := eq_or_ne id' id
    · rw [update_self] at hi
      rw [getElem?_append_left hi] at hi'
      exact h.missed id' hid hexclusive.of_append hnot other (mem_of_getElem? hi')
    · rw [update_of_ne hsame] at hfound hi
      rw [getElem?_append_left (Nat.lt_trans hi (h.position_lt hfound))] at hi'
      exact h.first id' hexclusive.of_append hfound i hi other hi'
  · obtain rfl | hsame := eq_or_ne id' id
    · simp [update_self] at hmissed
    · rw [update_of_ne hsame] at hmissed
      rcases mem_append.mp hmem with hmem | hmem
      · exact h.missed id' hid' hexclusive.of_append hmissed other hmem
      · rw [mem_singleton.mp hmem]
        exact hother id' hsame hexclusive

/-- The line is not the one of a property. -/
theorem ReadFrom.pass (h : ReadFrom config lines position f tokens)
    (hpass : ∀ id ∈ uniquePropertyIds, (f id).isFound = false → config.regex id line = none)
    (hnodup : (tokens'.map Prod.fst).Nodup)
    (hnot_empty : ∀ pair ∈ tokens', pair.1 ≠ [] ∧ pair.2 ≠ []) :
    ReadFrom config (lines ++ [line]) position f tokens' where
  required := h.required
  stands id hfound := by
    obtain ⟨other, hother, hvalue⟩ := h.stands id hfound
    exact ⟨other, getElem?_append_left (h.position_lt hfound) ▸ hother, hvalue⟩
  distinct := h.distinct
  first id hexclusive hfound i hi other hi' := by
    rw [getElem?_append_left (Nat.lt_trans hi (h.position_lt hfound))] at hi'
    exact h.first id hexclusive.of_append hfound i hi other hi'
  missed id hid hexclusive hmissed other hmem := by
    rcases mem_append.mp hmem with hmem | hmem
    · exact h.missed id hid hexclusive.of_append hmissed other hmem
    · rw [mem_singleton.mp hmem]
      exact hpass id hid hmissed
  nodup := hnodup
  not_empty := hnot_empty

theorem matchToken_ok (h : matchToken config line tokens = .ok tokens')
    (hnodup : (tokens.map Prod.fst).Nodup)
    (hnot_empty : ∀ pair ∈ tokens, pair.1 ≠ [] ∧ pair.2 ≠ []) :
    (tokens'.map Prod.fst).Nodup ∧ ∀ pair ∈ tokens', pair.1 ≠ [] ∧ pair.2 ≠ [] := by
  unfold matchToken at h
  split at h
  · split at h
    · cases h
      exact ⟨hnodup, hnot_empty⟩
    next propertyName propertyValue hmatch =>
      split at h
      · cases h
      next hname =>
        split at h
        · cases h
        next hvalue =>
          cases h
          refine ⟨Properties.nodup_emplace hnodup, fun pair hpair => ?_⟩
          rcases Properties.mem_emplace hpair with hpair | rfl
          · exact hnot_empty pair hpair
          · exact ⟨hname, hvalue⟩
    · cases h
  · cases h
    exact ⟨hnodup, hnot_empty⟩

theorem ReadFrom.readTrimmed (h : ReadFrom config lines position f tokens)
    (hread : readTrimmed config order (f, tokens) line = .ok (f', tokens')) :
    ∃ position', ReadFrom config (lines ++ [line]) position' f' tokens' := by
  obtain ⟨r, hmatch, hread⟩ := bind_eq_ok.mp hread
  rw [matchUnique_eq] at hmatch
  cases hfind : order.uniqueProperties.find? (isCandidate config f line) with
  | some id =>
    rw [hfind] at hmatch
    obtain ⟨value, hvalue, rfl⟩ := consume_eq_ok.mp hmatch
    cases hread
    have hid := order.uniqueProperties_perm.mem_iff.mp (mem_of_find?_eq_some hfind)
    have hcandidate := find?_some hfind
    have hnot := (Bool.and_eq_true_iff.mp hcandidate).1
    exact ⟨_, h.consume hid (by simpa using hnot) hvalue⟩
  | none =>
    rw [hfind] at hmatch
    cases hmatch
    obtain ⟨tokens'', htoken, hread⟩ := bind_eq_ok.mp hread
    cases hread
    obtain ⟨hnodup, hnot_empty⟩ := matchToken_ok htoken h.nodup h.not_empty
    refine ⟨position, h.pass (fun id hid hmissed => ?_) hnodup hnot_empty⟩
    have hnot := find?_eq_none.mp hfind id (order.uniqueProperties_perm.mem_iff.mpr hid)
    simpa [isCandidate, hmissed] using hnot

theorem foldlM_readTrimmed {more : List Octets} : ∀ {lines : List Octets}
    {position : PropertyId → Nat} {found found' : UniqueProperties × Properties},
    ReadFrom config lines position found.1 found.2 →
    more.foldlM (readTrimmed config order) found = .ok found' →
    ∃ position', ReadFrom config (lines ++ more) position' found'.1 found'.2 := by
  induction more with
  | nil =>
    intro lines position found found' h hread
    cases hread
    exact ⟨position, by rwa [append_nil]⟩
  | cons line more ih =>
    intro lines position found found' h hread
    rw [foldlM_cons] at hread
    obtain ⟨next, hnext, hread⟩ := bind_eq_ok.mp hread
    obtain ⟨position', h'⟩ := h.readTrimmed hnext
    rw [append_cons]
    exact ih h' hread

/-- What a response which could be read has come to. -/
theorem readFrom_of_readLines (h : readLines config order content = .ok (f, tokens)) :
    ∃ position, ReadFrom config (responseLines content) position f tokens := by
  rw [readLines_eq] at h
  exact foldlM_readTrimmed (readFrom_nil config fun _ => 0) h

/-! ## The checks -/

theorem chkProperty_eq_ok {condition isRequired : Bool} {id : PropertyId} :
    chkProperty condition id isRequired = .ok () ↔ condition = true := by
  cases condition with
  | false => exact ⟨nofun, nofun⟩
  | true => exact ⟨fun _ => rfl, fun _ => rfl⟩

theorem convertProperty_eq_ok {id : PropertyId} {n : Int} :
    convertProperty f id = .ok n ↔ tryLexicalConvert (f id).value = some n := by
  unfold convertProperty
  split
  next value hvalue => simp [hvalue]
  next hnone => simp [hnone]

/-- The status and the category of a response which was not refused. -/
theorem chkStatus_ok (h : chkStatus config f = .ok ()) :
    (f .status).isFound = true ∧
    ∃ status, tryLexicalConvert (f .status).value = some status ∧
      (config.successStatus = status ∨ status ∈ config.otherSuccessStatuses) ∧
      ∀ successCategory, config.successStatusCategory = some successCategory →
        (f .statusCategory).isFound = true ∧
          tryLexicalConvert (f .statusCategory).value = some successCategory := by
  obtain ⟨_, hfound, h₁⟩ := bind_eq_ok.mp h
  obtain ⟨status, hstatus, h₂⟩ := bind_eq_ok.mp h₁
  obtain ⟨_, hcategory, h₃⟩ := bind_eq_ok.mp h₂
  obtain ⟨statusCategory, hconvert, h₄⟩ := bind_eq_ok.mp h₃
  have hsuccess : isSuccess config status statusCategory = true := by
    by_contra hnot
    have hrefused : Except.error _ = Except.ok () := (if_neg hnot).symm.trans h₄
    cases hrefused
  obtain ⟨hvalue, hmatches⟩ := of_decide_eq_true hsuccess
  refine ⟨chkProperty_eq_ok.mp hfound, status, convertProperty_eq_ok.mp hstatus, hvalue,
    fun successCategory hset => ?_⟩
  have hcategoryFound : (f .statusCategory).isFound = true := by
    have hcondition := chkProperty_eq_ok.mp hcategory
    rwa [hset] at hcondition
  rw [convertFound, if_pos hcategoryFound] at hconvert
  cases hcategory' : convertProperty f .statusCategory with
  | error e =>
    rw [hcategory'] at hconvert
    cases hconvert
  | ok category =>
    rw [hcategory'] at hconvert
    cases hconvert
    rw [hmatches successCategory hset category rfl]
    exact ⟨hcategoryFound, convertProperty_eq_ok.mp hcategory'⟩

theorem isRequired_iff (h : ∀ id, (f id).isRequired = (getUniqueProperties id).isRequired)
    (id : PropertyId) : (f id).isRequired = true ↔ id = .sid ∨ id = .status := by
  rw [h]
  cases id <;> decide

/-- When the status was found, the identity is what can still be missing. -/
theorem chkRequired_eq (h : ∀ id, (f id).isRequired = (getUniqueProperties id).isRequired)
    (hstatus : (f .status).isFound = true) (ids : List PropertyId) :
    chkRequired f ids =
      if .sid ∈ ids then chkProperty (f .sid).isFound .sid true else .ok () := by
  induction ids with
  | nil => rfl
  | cons id ids ih =>
    rw [chkRequired, ih]
    obtain rfl | hsid := eq_or_ne id .sid
    · rw [if_pos mem_cons_self, (isRequired_iff h .sid).mpr (.inl rfl)]
      cases hfound : (f .sid).isFound with
      | false => rfl
      | true => split <;> rfl
    · have hpasses : (!(f id).isRequired || (f id).isFound) = true := by
        by_cases hstatus' : id = .status
        · rw [hstatus', hstatus, Bool.or_true]
        · have hnot : (f id).isRequired = false := Bool.eq_false_iff.mpr fun hrequired =>
            ((isRequired_iff h id).mp hrequired).elim hsid hstatus'
          rw [hnot]
          rfl
      have hmem : .sid ∈ id :: ids ↔ .sid ∈ ids := by
        rw [mem_cons]
        exact or_iff_right (Ne.symm hsid)
      simp only [hpasses, hmem]
      rfl

theorem sid_mem (order : IterationOrder) : .sid ∈ order.uniqueProperties :=
  order.uniqueProperties_perm.mem_iff.mpr (by decide)

/-! ## Two iteration orders -/

/-- The tokens are the same, or list the same properties. -/
def SameToken (a b : Option Octets) : Prop :=
  a = b ∨ ∃ properties properties' : Properties, properties.Perm properties' ∧
    (properties.map Prod.fst).Nodup ∧ a = some (joinProperties ';'.toUInt8 properties) ∧
    b = some (joinProperties ';'.toUInt8 properties')

/-- The same exception, or the same principal up to the order in which its
token lists the properties. -/
inductive SameOutcome : Except Exception SecurityPrincipal →
    Except Exception SecurityPrincipal → Prop
  | error (e : Exception) : SameOutcome (.error e) (.error e)
  | ok (principal : SecurityPrincipal) {token : Option Octets}
      (htoken : SameToken principal.authenticationToken token) :
      SameOutcome (.ok principal) (.ok { principal with authenticationToken := token })

theorem SameOutcome.rfl {r : Except Exception SecurityPrincipal} : SameOutcome r r := by
  cases r with
  | error e => exact .error e
  | ok principal => exact .ok principal (.inl (Eq.refl _))

/-- The principal with its token. -/
def principalOf (f : UniqueProperties) (token : Option Octets) : SecurityPrincipal where
  sid := (f .sid).value
  givenName := (f .givenName).value
  familyName := (f .familyName).value
  email := (f .email).value
  typeId := (f .typeId).value
  authenticationToken := token

variable {it : Core.SerializationUtils.Iterators}

theorem updatedToken_order (order order' : IterationOrder)
    (h : ¬ (config.isTokenBinary = false ∧ config.isTokenMultiProperties = true)) :
    updatedToken it config order f tokens = updatedToken it config order' f tokens := by
  unfold updatedToken
  cases hbinary : config.isTokenBinary with
  | true => rfl
  | false =>
    rw [Bool.eq_false_iff.mpr fun hmulti => h ⟨hbinary, hmulti⟩]
    rfl

theorem updatedToken_multi (hbinary : config.isTokenBinary = false)
    (hmulti : config.isTokenMultiProperties = true) :
    updatedToken it config order f tokens =
      .ok (if tokens = [] then none
        else some (joinProperties ';'.toUInt8 (order.tokenProperties tokens))) := by
  simp only [updatedToken, hbinary, hmulti, if_true, Bool.false_eq_true, if_false]
  split <;> rfl

theorem extractSecurityPrincipal_eq (it : Core.SerializationUtils.Iterators) (config : Config)
    (order : IterationOrder) (content : Octets) :
    extractSecurityPrincipal it config order content = (do
      let found ← readLines config order content
      chkStatus config found.1
      chkProperty (found.1 .sid).isFound .sid true
      let token ← updatedToken it config order found.1 found.2
      return principalOf found.1 token) := by
  unfold extractSecurityPrincipal
  cases hread : readLines config order content with
  | error e => rfl
  | ok found =>
    obtain ⟨f, tokens⟩ := found
    cases hstatus : chkStatus config f with
    | error e => simp [hstatus, bind, Except.bind]
    | ok u =>
      obtain ⟨position, hfrom⟩ := readFrom_of_readLines hread
      have hrequired := chkRequired_eq hfrom.required (chkStatus_ok hstatus).1
        order.uniqueProperties
      rw [if_pos (sid_mem order)] at hrequired
      simp only [bind, Except.bind, hstatus, hrequired]
      rfl

/-- Where no two patterns match one line, only the token depends on the
order, and only by the order of the properties it lists. -/
theorem extractSecurityPrincipal_order (h : NoOverlap config content) :
    SameOutcome (extractSecurityPrincipal it config order content)
      (extractSecurityPrincipal it config order' content) := by
  rw [extractSecurityPrincipal_eq, extractSecurityPrincipal_eq,
    readLines_order order order' h]
  cases hread : readLines config order' content with
  | error e => exact .error e
  | ok found =>
    obtain ⟨f, tokens⟩ := found
    cases hstatus : chkStatus config f with
    | error e =>
      simp only [bind, Except.bind, hstatus]
      exact .error e
    | ok u =>
      cases hsid : chkProperty (f .sid).isFound .sid true with
      | error e =>
        simp only [bind, Except.bind, hstatus, hsid]
        exact .error e
      | ok u =>
        simp only [bind, Except.bind, hstatus, hsid]
        by_cases hmulti : config.isTokenBinary = false ∧ config.isTokenMultiProperties = true
        · rw [updatedToken_multi hmulti.1 hmulti.2, updatedToken_multi hmulti.1 hmulti.2]
          refine .ok (principalOf f _) ?_
          by_cases hnone : tokens = []
          · rw [if_pos hnone, if_pos hnone]
            exact .inl rfl
          · obtain ⟨position, hfrom⟩ := readFrom_of_readLines hread
            have hperm := order.tokenProperties_perm tokens
            rw [if_neg hnone, if_neg hnone]
            exact .inr ⟨_, _, hperm.trans (order'.tokenProperties_perm tokens).symm,
              (hperm.map Prod.fst).nodup_iff.mpr hfrom.nodup, rfl, rfl⟩
        · rw [updatedToken_order order order' hmulti]
          exact .rfl

/-- The lines a principal was read from. -/
structure PrincipalFrom (config : Config) (lines : List Octets) (position : PropertyId → Nat)
    (principal : SecurityPrincipal) : Prop where
  sid : ∃ line, lines[position .sid]? = some line ∧ config.regex .sid line = some [principal.sid]
  status : ∃ line text status, lines[position .status]? = some line ∧
    config.regex .status line = some [text] ∧ tryLexicalConvert text = some status ∧
    (config.successStatus = status ∨ status ∈ config.otherSuccessStatuses)
  statusCategory : ∀ successCategory, config.successStatusCategory = some successCategory →
    ∃ line text, lines[position .statusCategory]? = some line ∧
      config.regex .statusCategory line = some [text] ∧
      tryLexicalConvert text = some successCategory ∧
      position .statusCategory ≠ position .sid ∧ position .statusCategory ≠ position .status
  distinct : position .sid ≠ position .status
  first : ∀ id, id = .sid ∨ id = .status ∨ id = .statusCategory ∧ config.successStatusCategory.isSome →
    Exclusive config lines id → ∀ i < position id, ∀ line, lines[i]? = some line →
      config.regex id line = none

theorem principalFrom_of_ok {principal : SecurityPrincipal}
    (h : extractSecurityPrincipal it config order content = .ok principal) :
    ∃ position, PrincipalFrom config (responseLines content) position principal := by
  rw [extractSecurityPrincipal_eq] at h
  obtain ⟨⟨f, tokens⟩, hread, h₁⟩ := bind_eq_ok.mp h
  obtain ⟨_, hstatus, h₂⟩ := bind_eq_ok.mp h₁
  obtain ⟨_, hsid, h₃⟩ := bind_eq_ok.mp h₂
  obtain ⟨token, htoken, h₄⟩ := bind_eq_ok.mp h₃
  cases h₄
  obtain ⟨position, hfrom⟩ := readFrom_of_readLines hread
  have hsid := chkProperty_eq_ok.mp hsid
  obtain ⟨hfound, status, hvalue, hsuccess, hcategory⟩ := chkStatus_ok hstatus
  obtain ⟨statusLine, hstands, hmatch⟩ := hfrom.stands .status hfound
  refine ⟨position,
    { sid := hfrom.stands .sid hsid
      status := ⟨statusLine, _, status, hstands, hmatch, hvalue, hsuccess⟩
      statusCategory := fun successCategory hset => ?_
      distinct := fun heq => (nomatch hfrom.distinct .sid .status hsid hfound heq)
      first := fun id hid hexclusive => hfrom.first id hexclusive ?_ }⟩
  · obtain ⟨hcategoryFound, hconvert⟩ := hcategory successCategory hset
    obtain ⟨line, hline, hmatch'⟩ := hfrom.stands .statusCategory hcategoryFound
    exact ⟨line, _, hline, hmatch', hconvert,
      (fun heq => nomatch hfrom.distinct .statusCategory .sid hcategoryFound hsid heq),
      (fun heq => nomatch hfrom.distinct .statusCategory .status hcategoryFound hfound heq)⟩
  · rcases hid with rfl | rfl | ⟨rfl, hset⟩
    · exact hsid
    · exact hfound
    · obtain ⟨successCategory, hset⟩ := Option.isSome_iff_exists.mp hset
      exact (hcategory successCategory hset).1

/-- The outcome for a response in which no two patterns match one line does
not depend on the iteration orders; and a principal is always read from lines
of its own, with a status and a category of success. -/
theorem extractSecurityPrincipal_determined (it : Core.SerializationUtils.Iterators)
    (config : Config) (content : Octets) :
    (NoOverlap config content → ∀ order order' : IterationOrder,
      SameOutcome (extractSecurityPrincipal it config order content)
        (extractSecurityPrincipal it config order' content)) ∧
    ∀ (order : IterationOrder) (principal : SecurityPrincipal),
      extractSecurityPrincipal it config order content = .ok principal →
      ∃ position, PrincipalFrom config (responseLines content) position principal :=
  ⟨fun h _ _ => extractSecurityPrincipal_order h, fun _ _ h => principalFrom_of_ok h⟩

/-! ## Patterns which overlap -/

/-- A number is a status, `1` a category, too, `s` the identity, and each other
letter a token property of that name. -/
def overlapping : Config where
  isTokenBinary := false
  isTokenMultiProperties := true
  escapeTemplateVariables := none
  successStatus := 0
  successStatusCategory := none
  otherSuccessStatuses := []
  httpAction := octets "GET"
  contentType := octets "json"
  regex id line :=
    match id with
    | .sid => if line = octets "s" then some [line] else none
    | .status => if (tryLexicalConvert line).isSome then some [line] else none
    | .statusCategory => if line = octets "1" then some [line] else none
    | _ => none
  regexUpdatedTokenProperty line := some [line, line]

def statusFirst : IterationOrder where
  uniqueProperties := [.status, .statusCategory, .sid, .givenName, .familyName, .email, .typeId,
    .updatedTextToken, .updatedBinaryToken, .statusMessage]
  uniqueProperties_perm := by decide
  tokenProperties := id
  tokenProperties_perm properties := List.Perm.refl properties

def categoryFirst : IterationOrder where
  uniqueProperties := [.statusCategory, .status, .sid, .givenName, .familyName, .email, .typeId,
    .updatedTextToken, .updatedBinaryToken, .statusMessage]
  uniqueProperties_perm := by decide
  tokenProperties := List.reverse
  tokenProperties_perm := reverse_perm

/-- The status of the first line is one of failure; read as a category, it
leaves the next line to be the status. -/
def failedThenZero : Octets := octets "1\n0\ns"

/-- Each line is matched by one pattern. -/
def twoTokens : Octets := octets "0\ns\na\nb"

instance : Decidable (NoOverlap config content) :=
  inferInstanceAs (Decidable (∀ line ∈ responseLines content, ∀ id ∈ uniquePropertyIds,
    ∀ id' ∈ uniquePropertyIds,
      (config.regex id line).isSome → (config.regex id' line).isSome → id = id'))

theorem twoTokens_determined :
    SameOutcome
      (extractSecurityPrincipal Core.SerializationUtils.regrouping overlapping statusFirst twoTokens)
      (extractSecurityPrincipal Core.SerializationUtils.regrouping overlapping categoryFirst
        twoTokens) :=
  (extractSecurityPrincipal_determined Core.SerializationUtils.regrouping overlapping twoTokens).1
    (by decide +kernel) statusFirst categoryFirst

/-- The outcome `extractSecurityPrincipal` has, whatever the exception. -/
def outcome (order : IterationOrder) (content : Octets) : Option SecurityPrincipal :=
  (extractSecurityPrincipal Core.SerializationUtils.regrouping overlapping order content).toOption

theorem order_decides :
    (responseLines failedThenZero).find? (fun line => (overlapping.regex .status line).isSome) =
        some (octets "1") ∧
      tryLexicalConvert (octets "1") = some 1 ∧
      outcome statusFirst failedThenZero = none ∧
      (outcome categoryFirst failedThenZero).map SecurityPrincipal.sid = some (octets "s") ∧
      (outcome statusFirst twoTokens).map SecurityPrincipal.authenticationToken =
        some (some (octets "a=a;b=b")) ∧
      (outcome categoryFirst twoTokens).map SecurityPrincipal.authenticationToken =
        some (some (octets "b=b;a=a")) := by
  decide +kernel

end Baselib.Security.AuthorizationServiceRest
