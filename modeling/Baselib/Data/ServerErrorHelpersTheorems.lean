/-
Baselib.Data.ServerErrorHelpersTheorems — which server errors survive their
transport.

The properties which are read from a re-created exception are those it was
re-created from, as long as the type has set nothing in place of an empty
string and the error code comes with a category every process is able to name
(`propertiesOf_attach`). The message of a system error is found again in the
text of `what()` when the separator before the text of the code is the first
one (`whatPrefix_systemErrorWhat`).
-/
import Baselib.Data.ServerErrorHelpers
import Mathlib.Data.List.TakeWhile

namespace Baselib.Data.ServerErrorHelpers

open Lib

variable {υ : Type} {env : Environment υ} {attached : ErrorInfos υ}

/-! ## Properties -/

theorem size_type_le (p : IntProperty) : p.type.size ≤ IntType.int.size := by
  cases p <;> decide

/-- A property has a value the error info can take. -/
theorem cast_of_mem_ints {infos : ErrorInfos υ} {p : IntProperty} {v : IntType.int.Value}
    (h : (propertiesOf env infos).ints p = some v) :
    IntType.int.cast (p.type.cast v) = v := by
  rcases Option.or_eq_some_iff.mp h with hv | ⟨-, hv⟩
  · obtain ⟨x, -, rfl⟩ := Option.map_eq_some_iff.mp hv
    rw [IntType.cast_cast (size_type_le p)]
  · split at hv
    next hp =>
      subst hp
      exact IntType.cast_cast (Nat.le_refl _) v
    next => cases hv

/-- A string property as it is set from an error info. -/
theorem strings_eq (infos : ErrorInfos υ) (p : StringProperty) :
    (propertiesOf env infos).strings p =
      if p = .originalStackTrace then ((infos.strings p).getD []).take maxStackTraceSize
      else (infos.strings p).getD [] := rfl

variable {base infos : ErrorInfos υ} {category : Option ErrorCategory}

/-- What holds of the infos of an exception and what its type sets, so that the
properties are the same when they are attached to what the type sets. -/
structure Carries (env : Environment υ) (base infos : ErrorInfos υ)
    (category : Option ErrorCategory) : Prop where
  ints : ∀ p, infos.ints p = none → base.ints p = none
  bools : ∀ p, infos.bools p = none → base.bools p = none
  strings : ∀ p, (propertiesOf env infos).strings p = [] → (base.strings p).getD [] = []
  errorCode : infos.errorCode = none → base.errorCode = none
  category : infos.errorCode ≠ none → category ≠ none
  errorUuid : infos.errorUuid = none → base.errorUuid = none

/-- The infos of an exception which is re-created from the properties. -/
def recreated (env : Environment υ) (base infos : ErrorInfos υ)
    (category : Option ErrorCategory) : ErrorInfos υ :=
  base.attach (infosFrom env (propertiesOf env infos) category)

namespace Carries

variable (h : Carries env base infos category)

include h

theorem errorCode_eq : (recreated env base infos category).errorCode.map ErrorCode.value =
    infos.errorCode.map ErrorCode.value := by
  have hread : (recreated env base infos category).errorCode =
      (infosFrom env (propertiesOf env infos) category).errorCode.or base.errorCode := rfl
  rw [hread]
  rcases hinfo : infos.errorCode with _ | code
  · have hset : (propertiesOf env infos).errorCode = none := by
      rw [propertiesOf, hinfo, Option.map_none]
    have hnone : (infosFrom env (propertiesOf env infos) category).errorCode = none := by
      cases category with
      | none => rfl
      | some category => exact congrArg (Option.map fun value => (⟨value, category⟩ : ErrorCode)) hset
    rw [h.errorCode hinfo, hnone]
    rfl
  · have hset : (propertiesOf env infos).errorCode = some code.value := by
      rw [propertiesOf, hinfo, Option.map_some]
    obtain ⟨category, rfl⟩ := Option.ne_none_iff_exists'.mp
      (h.category (hinfo ▸ Option.some_ne_none code))
    have hfrom : (infosFrom env (propertiesOf env infos) (some category)).errorCode =
        (propertiesOf env infos).errorCode.map fun value => ⟨value, category⟩ := rfl
    rw [hfrom, hset]
    rfl

theorem ints_eq (p : IntProperty) :
    (propertiesOf env (recreated env base infos category)).ints p =
      (propertiesOf env infos).ints p := by
  have hread : (recreated env base infos category).ints p =
      (((propertiesOf env infos).ints p).map fun v => p.type.cast v).or (base.ints p) := rfl
  have hset : (propertiesOf env (recreated env base infos category)).ints p =
      (((recreated env base infos category).ints p).map fun v => IntType.int.cast v).or
        (if p = .systemCode then
          (recreated env base infos category).errorCode.map ErrorCode.value else none) := rfl
  rw [hset, hread, h.errorCode_eq]
  rcases hproperty : (propertiesOf env infos).ints p with _ | v
  · obtain ⟨hinfo, hcode⟩ := Option.or_eq_none_iff.mp hproperty
    rw [h.ints p (Option.map_eq_none_iff.mp hinfo), hcode]
    rfl
  · rw [Option.map_some, Option.some_or, Option.map_some, Option.some_or,
      cast_of_mem_ints hproperty]

theorem bools_eq : (propertiesOf env (recreated env base infos category)).bools =
    (propertiesOf env infos).bools := by
  funext p
  change (infos.bools p).or (base.bools p) = infos.bools p
  rcases hinfo : infos.bools p with _ | value
  · rw [h.bools p hinfo, Option.or_none]
  · rfl

theorem strings_getD (p : StringProperty) :
    ((recreated env base infos category).strings p).getD [] = (propertiesOf env infos).strings p := by
  have hread : (recreated env base infos category).strings p =
      (if (propertiesOf env infos).strings p = [] then none
        else some ((propertiesOf env infos).strings p)).or (base.strings p) := rfl
  rw [hread]
  by_cases hempty : (propertiesOf env infos).strings p = []
  · rw [if_pos hempty, Option.none_or, h.strings p hempty, hempty]
  · rw [if_neg hempty]
    rfl

theorem strings_eq : (propertiesOf env (recreated env base infos category)).strings =
    (propertiesOf env infos).strings := by
  funext p
  rw [ServerErrorHelpers.strings_eq, h.strings_getD]
  split
  next htrace => rw [ServerErrorHelpers.strings_eq, if_pos htrace, List.take_take, Nat.min_self]
  next => rfl

theorem errorUuid_eq : (propertiesOf env (recreated env base infos category)).errorUuid =
    (propertiesOf env infos).errorUuid := by
  have hread : (recreated env base infos category).errorUuid =
      (if env.isUuid (propertiesOf env infos).errorUuid then
        some (env.string2uuid (propertiesOf env infos).errorUuid) else none).or base.errorUuid := rfl
  have hset : ∀ infos : ErrorInfos υ,
      (propertiesOf env infos).errorUuid = (infos.errorUuid.map env.uuid2string).getD [] :=
    fun _ => rfl
  rw [hset (recreated env base infos category), hread, hset infos]
  rcases hinfo : infos.errorUuid with _ | uuid
  · rw [h.errorUuid hinfo, Option.map_none, Option.getD_none,
      if_neg (by rw [env.isUuid_nil]; exact Bool.false_ne_true)]
    rfl
  · rw [Option.map_some, Option.getD_some, if_pos (env.isUuid_uuid2string uuid),
      env.string2uuid_uuid2string]
    rfl

theorem propertiesOf_eq :
    propertiesOf env (recreated env base infos category) = propertiesOf env infos := by
  rw [ExceptionProperties.mk.injEq]
  exact ⟨funext h.ints_eq, h.errorCode_eq, h.bools_eq, h.strings_eq, h.errorUuid_eq⟩

end Carries

/-! ## What the types set -/

/-- A type sets no more than that it is user friendly. -/
theorem typeInfos_eq (type : ExceptionType) :
    (∀ p, (type.infos : ErrorInfos υ).ints p = none) ∧
      (∀ p, (type.infos : ErrorInfos υ).strings p = none) ∧
      (type.infos : ErrorInfos υ).errorCode = none ∧
      (type.infos : ErrorInfos υ).errorUuid = none := by
  cases type <;> exact ⟨fun _ => rfl, fun _ => rfl, rfl, rfl⟩

/-! ## The message of a system error -/

/-- A text of two different octets which stands before its first one again stood
there before. -/
theorem not_infix_concat {c d : UInt8} {a : Octets} (hne : c ≠ d) (h : ¬ [c, d] <:+: a) :
    ¬ [c, d] <:+: a ++ [c] := by
  intro hin
  rcases List.infix_concat_iff.mp hin with hsuffix | hin
  · obtain ⟨b, hb⟩ := hsuffix
    have hlast := congrArg List.getLast? hb
    rw [List.getLast?_append, List.getLast?_concat] at hlast
    exact hne (Option.some.inj hlast).symm
  · exact h hin

theorem separator_ne_nil : octets ": " ≠ [] := by decide

theorem whatPrefix_of_separator {msg : Octets} (h : findText (octets ": ") msg = none)
    (text : Octets) : whatPrefix (msg ++ octets ": " ++ text) = msg := by
  have hin := (findText_eq_none_iff separator_ne_nil).mp h
  have hfind : findText (octets ": ") (msg ++ octets ": " ++ text) = some msg.length :=
    findText_append text separator_ne_nil (not_infix_concat (by decide) hin)
  rw [whatPrefix, hfind]
  dsimp only
  rw [List.append_assoc, List.take_left]

/-- The message is found again in the text of `what()`. -/
theorem whatPrefix_systemErrorWhat {msg : Octets} {code : ErrorCode}
    (h : findText (octets ": ") msg = none)
    (hempty : msg = [] → findText (octets ": ") (env.text code) = none) :
    whatPrefix (env.systemErrorWhat msg code) = msg := by
  by_cases hmsg : msg = []
  · subst hmsg
    rcases env.systemErrorWhat_nil code with hwhat | hwhat
    · rw [hwhat, whatPrefix, hempty rfl]
    · rw [hwhat]
      exact whatPrefix_of_separator h (env.text code)
  · rw [env.systemErrorWhat_eq msg code hmsg]
    exact whatPrefix_of_separator h (env.text code)

theorem cString_cString (s : Octets) : cString (cString s) = cString s := by
  unfold cString
  exact List.takeWhile_idem

/-! ## The round trip -/

/-- The exceptions which survive: those of a type which is named, with a message
which is not empty, and an error code of a category every process is able to
name; and system errors of such a category which carry their own code, whose
message does not have the separator. -/
inductive Survives (env : Environment υ) : Exception υ → Prop where
  | default {type : ExceptionType} {attached : ErrorInfos υ} (htype : type ∈ exceptionTypes)
      (hmessage : attached.strings .message ≠ some [])
      (hcategory : attached.errorCode ≠ none →
        attached.strings .categoryName = some (octets "generic") ∨
          attached.strings .categoryName = some (octets "system")) :
      Survives env (.default type attached)
  | system {msg : Octets} {code : ErrorCode} {attached : ErrorInfos υ}
      (hcategory : code.category = .generic ∨ code.category = .system)
      (hcode : ∀ code', attached.errorCode = some code' → code'.value = code.value)
      (hname : ∀ name, attached.strings .categoryName = some name → name = code.category.name)
      (htext : attached.strings .errorCodeMessage ≠ some [])
      (hmsg : findText (octets ": ") (cString msg) = none)
      (hempty : cString msg = [] → findText (octets ": ") (env.text code) = none) :
      Survives env (.system msg code attached)

theorem errorCategory_name {category : ErrorCategory}
    (h : category = .generic ∨ category = .system) :
    errorCategory category.name = some category ∧ category.name ≠ [] := by
  rcases h with rfl | rfl <;> decide

theorem find?_fullTypeName {type : ExceptionType} (h : type ∈ exceptionTypes) :
    exceptionTypes.find? (·.fullTypeName == type.fullTypeName) = some type ∧
      type.fullTypeName ≠ octets "std::exception" := by
  revert type
  decide +kernel

/-- An object is made of what is read of the exception. -/
theorem createServerErrorObject_congr {e e' : Exception υ} (htype : fullTypeName e' = fullTypeName e)
    (hwhat : e'.what env = e.what env)
    (hproperties : propertiesOf env (e'.infos env) = propertiesOf env (e.infos env)) :
    createServerErrorObject env e' = createServerErrorObject env e := by
  have hbools : (e'.infos env).bools = (e.infos env).bools :=
    congrArg ExceptionProperties.bools hproperties
  have hfriendly : isUserFriendly env e' = isUserFriendly env e := by
    unfold isUserFriendly
    rw [hbools]
  unfold createServerErrorObject createServerErrorResultObject
  rw [htype, hwhat, hproperties, hfriendly]

/-- A string which is empty in the object was not set by the type. -/
theorem strings_of_attach {base : ErrorInfos υ} {p : StringProperty}
    (hattached : attached.strings p ≠ some []) (hset : base.strings p = none ∨ p ≠ .originalStackTrace)
    (hempty : (propertiesOf env (base.attach attached)).strings p = []) :
    (base.strings p).getD [] = [] := by
  rcases hset with hnone | htrace
  · rw [hnone]
    rfl
  · rw [strings_eq, if_neg htrace] at hempty
    have hread : (base.attach attached).strings p = (attached.strings p).or (base.strings p) := rfl
    rw [hread] at hempty
    rcases hvalue : attached.strings p with _ | value
    · rwa [hvalue, Option.none_or] at hempty
    · rw [hvalue, Option.some_or, Option.getD_some] at hempty
      exact absurd (hempty ▸ hvalue) hattached

/-- The category name of the object, where it is not cut. -/
theorem categoryName_eq {infos : ErrorInfos υ} {name : Octets}
    (h : infos.strings .categoryName = some name) :
    (propertiesOf env infos).strings .categoryName = name := by
  rw [strings_eq, if_neg nofun, h, Option.getD_some]

theorem carries_default {type : ExceptionType} (hcategory : attached.errorCode ≠ none →
      attached.strings .categoryName = some (octets "generic") ∨
        attached.strings .categoryName = some (octets "system")) :
    Carries env type.infos (type.infos.attach attached) (errorCategory
      ((propertiesOf env (type.infos.attach attached)).strings .categoryName)) := by
  obtain ⟨hints, hstrings, hcode, huuid⟩ := typeInfos_eq (υ := υ) type
  refine ⟨fun p _ => hints p, fun p h => (Option.or_eq_none_iff.mp h).2, fun p _ => ?_,
    fun _ => hcode, fun h => ?_, fun _ => huuid⟩
  · rw [hstrings p]
    rfl
  · have hattached : attached.errorCode ≠ none := by
      intro hnone
      exact h (Option.or_eq_none_iff.mpr ⟨hnone, hcode⟩)
    have hname : ∀ name, attached.strings .categoryName = some name →
        (type.infos.attach attached).strings .categoryName = some name :=
      fun name hname => Option.or_eq_some_iff.mpr (.inl hname)
    rcases hcategory hattached with hgeneric | hsystem
    · rw [categoryName_eq (hname _ hgeneric)]
      decide
    · rw [categoryName_eq (hname _ hsystem)]
      decide

/-- The message of `what()` is the one which was given, or there is none. -/
theorem what_default {type : ExceptionType}
    {category : Option ErrorCategory} (hmessage : attached.strings .message ≠ some []) :
    Exception.what env (.default type (infosFrom env
        (propertiesOf env (type.infos.attach attached)) category)) =
      Exception.what env (.default type attached) := by
  have hnone := (typeInfos_eq (υ := υ) type).2.1 .message
  have hbefore : (type.infos.attach attached).strings .message = attached.strings .message := by
    change (attached.strings .message).or (type.infos.strings .message) = _
    rw [hnone, Option.or_none]
  have hproperty : (propertiesOf env (type.infos.attach attached)).strings .message =
      (attached.strings .message).getD [] := by
    rw [strings_eq, if_neg nofun, hbefore]
  have hafter : (recreated env type.infos (type.infos.attach attached) category).strings .message =
      attached.strings .message := by
    change (if (propertiesOf env (type.infos.attach attached)).strings .message = [] then none
      else some ((propertiesOf env (type.infos.attach attached)).strings .message)).or
        (type.infos.strings .message) = _
    rw [hnone, Option.or_none, hproperty]
    rcases hvalue : attached.strings .message with _ | message
    · rfl
    · rw [Option.getD_some, if_neg]
      rintro rfl
      exact hmessage hvalue
  change baseExceptionWhat
      ((recreated env type.infos (type.infos.attach attached) category).strings .message) =
    baseExceptionWhat ((type.infos.attach attached).strings .message)
  rw [hafter, hbefore]

theorem carries_system {code : ErrorCode}
    (hcategory : code.category = .generic ∨ code.category = .system)
    (hname : (propertiesOf env ((systemInfos env code).attach attached)).strings .categoryName =
      code.category.name)
    (htext : attached.strings .errorCodeMessage ≠ some []) :
    Carries env (systemInfos env code) ((systemInfos env code).attach attached)
      (some code.category) := by
  refine ⟨fun p h => (Option.or_eq_none_iff.mp h).2, fun p h => (Option.or_eq_none_iff.mp h).2,
    fun p h => ?_, fun h => (Option.or_eq_none_iff.mp h).2, fun _ => Option.some_ne_none _,
    fun h => (Option.or_eq_none_iff.mp h).2⟩
  obtain rfl | hcategoryName := eq_or_ne p .categoryName
  · rw [hname] at h
    exact absurd h (errorCategory_name hcategory).2
  · obtain rfl | hmessage := eq_or_ne p .errorCodeMessage
    · exact strings_of_attach htext (.inr nofun) h
    · have hnone : (systemInfos env code).strings p = none := by
        cases p <;> first | rfl | exact absurd rfl hcategoryName | exact absurd rfl hmessage
      rw [hnone]
      rfl

/-- The arm of the type is the one taken. -/
theorem createExceptionFromObject_default {type : ExceptionType} (htype : type ∈ exceptionTypes)
    (attached : ErrorInfos υ) :
    createExceptionFromObject env (createServerErrorObject env (.default type attached)) =
      .ok (.default type (infosFrom env (propertiesOf env (type.infos.attach attached))
        (errorCategory ((propertiesOf env (type.infos.attach attached)).strings .categoryName)))) := by
  obtain ⟨hfind, hstd⟩ := find?_fullTypeName htype
  unfold createExceptionFromObject createServerErrorObject createServerErrorResultObject fullTypeName
  dsimp only
  rw [if_neg hstd, hfind]
  rfl

theorem createExceptionFromObject_system {msg : Octets} {code : ErrorCode}
    (hcategory : code.category = .generic ∨ code.category = .system)
    (hname : (propertiesOf env ((systemInfos env code).attach attached)).strings .categoryName =
      code.category.name)
    (hvalue : (propertiesOf env ((systemInfos env code).attach attached)).errorCode =
      some code.value)
    (hleading : whatPrefix (env.systemErrorWhat (cString msg) code) = cString msg) :
    createExceptionFromObject env (createServerErrorObject env (.system msg code attached)) =
      .ok (.system (cString msg) code (infosFrom env
        (propertiesOf env ((systemInfos env code).attach attached)) (some code.category))) := by
  have hstd : octets "bl::SystemException" ≠ octets "std::exception" := by decide
  have hfind : exceptionTypes.find? (·.fullTypeName == octets "bl::SystemException") = none := by
    decide +kernel
  unfold createExceptionFromObject createServerErrorObject createServerErrorResultObject fullTypeName
  dsimp only
  rw [if_neg hstd, hfind]
  dsimp only
  rw [if_pos rfl]
  unfold createSystemException
  dsimp only [Exception.infos, Exception.what]
  rw [hname, (errorCategory_name hcategory).1, hvalue, hleading]

theorem serverError_survives {e : Exception υ} (h : Survives env e) :
    ∃ e', createExceptionFromObject env (createServerErrorObject env e) = .ok e' ∧
      createServerErrorObject env e' = createServerErrorObject env e := by
  cases h with
  | default htype hmessage hcategory =>
    refine ⟨_, createExceptionFromObject_default htype _, createServerErrorObject_congr rfl ?_ ?_⟩
    · exact what_default hmessage
    · exact (carries_default hcategory).propertiesOf_eq
  | @system msg code attached hcategory hcode hname htext hmsg hempty =>
    have hnameSet : (propertiesOf env ((systemInfos env code).attach attached)).strings
        .categoryName = code.category.name := by
      refine categoryName_eq ?_
      change (attached.strings .categoryName).or (some code.category.name) = _
      rcases hvalue : attached.strings .categoryName with _ | name
      · rfl
      · rw [hname name hvalue, Option.some_or]
    have hvalueSet : (propertiesOf env ((systemInfos env code).attach attached)).errorCode =
        some code.value := by
      change (attached.errorCode.or (some code)).map ErrorCode.value = _
      rcases hvalue : attached.errorCode with _ | code'
      · rfl
      · rw [Option.some_or, Option.map_some, hcode code' hvalue]
    refine ⟨_, createExceptionFromObject_system hcategory hnameSet hvalueSet
      (whatPrefix_systemErrorWhat hmsg hempty), createServerErrorObject_congr rfl ?_ ?_⟩
    · change env.systemErrorWhat (cString (cString msg)) code = env.systemErrorWhat (cString msg) code
      rw [cString_cString]
    · exact (carries_system hcategory hnameSet htext).propertiesOf_eq

/-- Two codes of the generic category, and one uuid. -/
def posixEnvironment : Environment Unit where
  message code :=
    if code.value = IntType.int.ofInt 2 then octets "No such file or directory"
    else octets "Permission denied"
  text code :=
    if code.value = IntType.int.ofInt 2 then octets "No such file or directory"
    else octets "Permission denied"
  systemErrorWhat msg code :=
    (if msg = [] then [] else msg ++ octets ": ") ++
      if code.value = IntType.int.ofInt 2 then octets "No such file or directory"
      else octets "Permission denied"
  uuid2string _ := octets "6e0a8c15-0a0c-4a6b-9c0c-7f6f5c1d2b3a"
  isUuid value := value == octets "6e0a8c15-0a0c-4a6b-9c0c-7f6f5c1d2b3a"
  string2uuid _ := ()
  systemErrorWhat_eq msg code hmsg := by rw [if_neg hmsg]
  systemErrorWhat_nil code := .inl rfl
  isUuid_uuid2string _ := beq_self_eq_true _
  string2uuid_uuid2string _ := rfl
  isUuid_nil := by decide

def fileNotFound : ErrorCode := ⟨IntType.int.ofInt 2, .generic⟩

def accessDenied : ErrorCode := ⟨IntType.int.ofInt 13, .generic⟩

def openFailed : Exception Unit :=
  .system (octets "open") fileNotFound { ErrorInfos.empty with
    strings := fun p => if p = .fileName then some (octets "a.txt") else none }

theorem openFailed_survives :
    ∃ e', createExceptionFromObject posixEnvironment
        (createServerErrorObject posixEnvironment openFailed) = .ok e' ∧
      createServerErrorObject posixEnvironment e' =
        createServerErrorObject posixEnvironment openFailed :=
  serverError_survives (.system (Or.inl rfl) (fun _ h => by cases h) (fun _ h => by cases h)
    (by decide) (by decide) (by decide))

/-- The message of the object, and of the one made from the re-created exception. -/
def exceptionMessages (e : Exception Unit) : Octets × Except Octets Octets :=
  (e.what posixEnvironment,
    (createExceptionFromObject posixEnvironment (createServerErrorObject posixEnvironment e)).map
      (Exception.what posixEnvironment))

/-- The properties of the object, and of the one made from the re-created exception. -/
def exceptionProperties (e : Exception Unit) : ExceptionProperties × Except Octets ExceptionProperties :=
  (propertiesOf posixEnvironment (e.infos posixEnvironment),
    (createExceptionFromObject posixEnvironment (createServerErrorObject posixEnvironment e)).map
      fun e' => propertiesOf posixEnvironment (e'.infos posixEnvironment))

/-- A message with the separator, an error code without a category name, an
empty message, another error code than its own, and an empty text of the code. -/
theorem recreated_differs :
    exceptionMessages (.system (octets "open: a.txt") fileNotFound .empty) =
        (octets "open: a.txt: No such file or directory",
          .ok (octets "open: No such file or directory")) ∧
      (exceptionProperties (.default .serverErrorException { ErrorInfos.empty with
          errorCode := some fileNotFound })).map (·.errorCode) (·.map (·.errorCode)) =
        (some fileNotFound.value, .ok none) ∧
      exceptionMessages (.default .argumentException { ErrorInfos.empty with
          strings := fun p => if p = .message then some [] else none }) =
        ([], .ok (octets "std::exception")) ∧
      exceptionMessages (.system (octets "open") fileNotFound { ErrorInfos.empty with
          errorCode := some accessDenied }) =
        (octets "open: No such file or directory", .ok (octets "open: Permission denied")) ∧
      (exceptionProperties (.system (octets "open") fileNotFound { ErrorInfos.empty with
          strings := fun p => if p = .errorCodeMessage then some [] else none })).map
            (·.strings .errorCodeMessage) (·.map (·.strings .errorCodeMessage)) =
        ([], .ok (octets "No such file or directory")) := by
  refine ⟨?_, ?_, ?_, ?_, ?_⟩ <;> rfl

end Baselib.Data.ServerErrorHelpers
