/-
Baselib.Security.AuthorizationServiceRestToken — the updated token of several
properties, and the request which is made with it.

The token is written `name=value` with semicolons between, and nothing is
escaped: when a response is read it is only made sure that names and values
are not empty. It is read back as the map it was written of exactly when each
property is plain, and it is taken for a request only when its text is one
line.
-/
import Baselib.Security.AuthorizationServiceRestResponse

namespace Baselib.Core.Str

open Lib List

variable {properties m : Properties} {name value : Octets}

theorem Properties.value_eq_some_iff (hnodup : (properties.map Prod.fst).Nodup) :
    properties.value name = some value ↔ (name, value) ∈ properties := by
  induction properties with
  | nil => simp [Properties.value]
  | cons pair properties ih =>
    obtain ⟨hfresh, hnodup⟩ := nodup_cons.mp hnodup
    have hrest : (name, value) ∈ properties → pair.1 ≠ name := fun hmem heq =>
      hfresh (heq ▸ mem_map_of_mem hmem)
    by_cases hname : pair.1 = name
    · have hvalue : Properties.value (pair :: properties) name = some pair.2 := by
        simp [Properties.value, hname]
      rw [hvalue, mem_cons, or_iff_left fun hmem => hrest hmem hname, ← hname]
      simp [Prod.ext_iff, eq_comm]
    · have hvalue : Properties.value (pair :: properties) name =
          Properties.value properties name := by
        simp [Properties.value, hname]
      rw [hvalue, ih hnodup, mem_cons, or_iff_right]
      exact fun heq => hname (congrArg Prod.fst heq).symm

theorem Properties.value_of_perm (h : m.Perm properties) (hnodup : (properties.map Prod.fst).Nodup) :
    m.value name = properties.value name := by
  have hnodup' := (h.map Prod.fst).nodup_iff.mpr hnodup
  refine Option.ext fun value => ?_
  rw [Properties.value_eq_some_iff hnodup', Properties.value_eq_some_iff hnodup, h.mem_iff]

theorem Properties.value_eq_none_iff :
    properties.value name = none ↔ name ∉ properties.map Prod.fst := by
  simp only [Properties.value, Option.map_eq_none_iff, find?_eq_none, decide_eq_true_eq,
    mem_map, not_exists, not_and]

theorem Properties.value_emplace (name' : Octets) :
    (properties.emplace name value).value name' =
      (properties.value name' <|> if name' = name then some value else none) := by
  unfold Properties.emplace
  split
  next hmem =>
    cases hvalue : properties.value name' with
    | some value' => rfl
    | none =>
      have hne : name' ≠ name := fun heq =>
        Properties.value_eq_none_iff.mp hvalue (heq ▸ hmem)
      rw [if_neg hne]
      rfl
  · rw [Properties.value, find?_append]
    cases hfind : properties.find? fun pair => pair.1 = name' with
    | some pair => simp [Properties.value, hfind]
    | none =>
      have hnone : properties.value name' = none := by rw [Properties.value, hfind]; rfl
      rw [hnone]
      by_cases hname : name' = name
      · simp [hname]
      · simp [hname, Ne.symm hname]

theorem forall_mem_joinProperties {P : UInt8 → Prop} {separator : UInt8} (hseparator : P separator)
    (hequals : P equalsSign) : ∀ {properties : Properties},
    (∀ ch ∈ joinProperties separator properties, P ch) ↔
      ∀ pair ∈ properties, ∀ ch ∈ pair.1 ++ pair.2, P ch
  | [] => by simp [joinProperties]
  | [pair] => by simp [joinProperties, entryText, or_imp, forall_and, hequals]
  | pair :: next :: properties => by
      have ih : (∀ ch ∈ joinProperties separator (next :: properties), P ch) ↔ _ :=
        forall_mem_joinProperties hseparator hequals
      have hjoin : joinProperties separator (pair :: next :: properties) =
          entryText pair ++ [separator] ++ joinProperties separator (next :: properties) :=
        intercalate_cons_cons
      rw [hjoin, forall_mem_cons, ← ih]
      simp [entryText, or_imp, forall_and, hequals, hseparator, and_assoc]

end Baselib.Core.Str

namespace Baselib.Security.AuthorizationServiceRest

open Lib Lib.Checked Core.Str

variable {config : Config} {order : IterationOrder} {f : UniqueProperties}
  {tokens : Properties} {content text : Octets} {it : Core.SerializationUtils.Iterators}

/-- A character which the text of a token can have. -/
def isTokenCharacter (c : UInt8) : Bool := c ≠ '\r'.toUInt8 ∧ c ≠ '\n'.toUInt8 ∧ c ≠ 0

theorem chkTokenText_eq_ok : chkTokenText text = .ok () ↔ ∀ c ∈ text, isTokenCharacter c := by
  unfold chkTokenText
  rw [← List.all_eq_true]
  split
  next h => exact ⟨fun _ => h, fun _ => rfl⟩
  next h => exact ⟨nofun, fun hall => absurd hall h⟩

/-- The token of a response from which properties were collected. -/
theorem authenticationToken_eq {principal : SecurityPrincipal}
    (hbinary : config.isTokenBinary = false) (hmulti : config.isTokenMultiProperties = true)
    (hread : readLines config order content = .ok (f, tokens)) (hne : tokens ≠ [])
    (h : extractSecurityPrincipal it config order content = .ok principal) :
    principal.authenticationToken =
      some (joinProperties ';'.toUInt8 (order.tokenProperties tokens)) := by
  rw [extractSecurityPrincipal_eq, hread] at h
  obtain ⟨found, hfound, h₁⟩ := bind_eq_ok.mp h
  cases hfound
  obtain ⟨_, _, h₂⟩ := bind_eq_ok.mp h₁
  obtain ⟨_, _, h₃⟩ := bind_eq_ok.mp h₂
  obtain ⟨token, htoken, h₄⟩ := bind_eq_ok.mp h₃
  rw [updatedToken_multi hbinary hmulti, if_neg hne] at htoken
  cases htoken
  cases h₄
  rfl

theorem variablesOf_eq_ok {variables' : Properties} (hbinary : config.isTokenBinary = false)
    (hmulti : config.isTokenMultiProperties = true) :
    variablesOf it config text = .ok variables' ↔
      (∀ c ∈ text, isTokenCharacter c) ∧
        ∃ m, parsePropertiesList text = .ok m ∧ variables' = m.emplace textTokenName text := by
  have hbody : variablesOf it config text = (do
      chkTokenText text
      let properties ← (parsePropertiesList text).mapError Exception.properties
      return properties.emplace textTokenName text) := by
    simp only [variablesOf, tokenPropertiesOf, hbinary, hmulti, if_true, Bool.false_eq_true, if_false]
  rw [hbody, bind_eq_ok]
  constructor
  · rintro ⟨_, hchk, h⟩
    refine ⟨chkTokenText_eq_ok.mp hchk, ?_⟩
    cases hparse : parsePropertiesList text with
    | error e =>
      rw [hparse] at h
      cases h
    | ok m =>
      rw [hparse] at h
      cases h
      exact ⟨m, rfl, rfl⟩
  · rintro ⟨hchars, m, hparse, rfl⟩
    refine ⟨(), chkTokenText_eq_ok.mpr hchars, ?_⟩
    rw [hparse]
    rfl

/-- The text is read as the properties, and a request substitutes them. -/
def KeepsMeaning (it : Core.SerializationUtils.Iterators) (config : Config) (text : Octets)
    (properties : Properties) : Prop :=
  (∃ m, parsePropertiesList text = .ok m ∧ m.Perm properties) ∧
    ∃ templateVariables, variablesOf it config text = .ok templateVariables ∧
      ∀ name, templateVariables.value name =
        (properties.value name <|> if name = textTokenName then some text else none)

/-- The properties which are collected from a response are what the updated
token means exactly when each of them is written plainly and on one line. -/
theorem updatedToken_keepsMeaning_iff (it : Core.SerializationUtils.Iterators) (config : Config)
    (order : IterationOrder) (content : Octets) (principal : SecurityPrincipal)
    (f : UniqueProperties) (tokens : Properties) (hbinary : config.isTokenBinary = false)
    (hmulti : config.isTokenMultiProperties = true)
    (hread : readLines config order content = .ok (f, tokens)) (hne : tokens ≠ [])
    (hok : extractSecurityPrincipal it config order content = .ok principal) :
    (∃ text, principal.authenticationToken = some text ∧ KeepsMeaning it config text tokens) ↔
      ∀ pair ∈ tokens, Plain ';'.toUInt8 pair ∧ ∀ c ∈ pair.1 ++ pair.2, isTokenCharacter c := by
  obtain ⟨position, hfrom⟩ := readFrom_of_readLines hread
  have hperm := order.tokenProperties_perm tokens
  have hnodup : ((order.tokenProperties tokens).map Prod.fst).Nodup :=
    (hperm.map Prod.fst).nodup_iff.mpr hfrom.nodup
  have hplain : (∃ m, parsePropertiesList
      (joinProperties ';'.toUInt8 (order.tokenProperties tokens)) = .ok m ∧ m.Perm tokens) ↔
      ∀ pair ∈ tokens, Plain ';'.toUInt8 pair := by
    have hne' : order.tokenProperties tokens ≠ [] := fun hnil =>
      hne (List.Perm.nil_eq (hnil ▸ hperm)).symm
    have hperm' : ∀ m : Properties, m.Perm tokens ↔ m.Perm (order.tokenProperties tokens) :=
      fun m => ⟨fun h => h.trans hperm.symm, fun h => h.trans hperm⟩
    simp only [hperm']
    rw [parsePropertiesList_iff hne' hnodup (by decide)]
    exact forall_congr' fun pair => by rw [hperm.mem_iff]
  have hchars : (∀ c ∈ joinProperties ';'.toUInt8 (order.tokenProperties tokens),
      isTokenCharacter c) ↔ ∀ pair ∈ tokens, ∀ c ∈ pair.1 ++ pair.2, isTokenCharacter c := by
    rw [forall_mem_joinProperties (P := fun c => isTokenCharacter c) (by decide) (by decide)]
    exact forall_congr' fun pair => by rw [hperm.mem_iff]
  rw [authenticationToken_eq hbinary hmulti hread hne hok]
  constructor
  · rintro ⟨_, ⟨⟩, hparse, templateVariables, hvariables, -⟩ pair hpair
    exact ⟨hplain.mp hparse pair hpair,
      hchars.mp ((variablesOf_eq_ok hbinary hmulti).mp hvariables).1 pair hpair⟩
  · intro h
    obtain ⟨m, hparse, hm⟩ := hplain.mpr fun pair hpair => (h pair hpair).1
    refine ⟨_, rfl, ⟨m, hparse, hm⟩, m.emplace textTokenName _,
      (variablesOf_eq_ok hbinary hmulti).mpr
        ⟨hchars.mpr fun pair hpair => (h pair hpair).2, m, hparse, rfl⟩, fun name => ?_⟩
    rw [Properties.value_emplace, Properties.value_of_perm hm hfrom.nodup]

theorem twoTokens_keepsMeaning :
    ∃ text, (⟨octets "s", [], [], [], [], some (octets "b=b;a=a")⟩ :
        SecurityPrincipal).authenticationToken = some text ∧
      KeepsMeaning Core.SerializationUtils.regrouping overlapping text
        [(octets "a", octets "a"), (octets "b", octets "b")] :=
  (updatedToken_keepsMeaning_iff Core.SerializationUtils.regrouping overlapping categoryFirst
    twoTokens ⟨octets "s", [], [], [], [], some (octets "b=b;a=a")⟩ _ _ rfl rfl rfl
    (by decide +kernel) rfl).mpr
    (by decide +kernel)

/-- The pattern of a token property takes what stands after the second pair of
colons to be the value. -/
def colons : Config :=
  { overlapping with
    regexUpdatedTokenProperty := fun line =>
      if line = octets "::role::1;admin=1" then some [octets "role", octets "1;admin=1"] else none }

/-- A value with a semicolon comes back as two properties. -/
theorem value_adds_property :
    (extractSecurityPrincipal Core.SerializationUtils.regrouping colons statusFirst
        (octets "0\ns\n::role::1;admin=1")).toOption.bind SecurityPrincipal.authenticationToken =
          some (octets "role=1;admin=1") ∧
      (readLines colons statusFirst (octets "0\ns\n::role::1;admin=1")).toOption.map Prod.snd =
        some [(octets "role", octets "1;admin=1")] ∧
      parsePropertiesList (octets "role=1;admin=1") =
        .ok [(octets "role", octets "1"), (octets "admin", octets "1")] := by
  decide +kernel

end Baselib.Security.AuthorizationServiceRest
