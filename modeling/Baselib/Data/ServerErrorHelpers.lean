/-
Baselib.Data.ServerErrorHelpers — server error objects, and the exceptions they
are made from and re-created as: `data/eh/ServerErrorHelpers.h`, with the
exception types of `core/ErrorHandling.h` and the objects of
`data/models/ErrorHandling.h`.

The properties of an exception are its error infos: those its type sets when it
is created, and those which were attached to it with `<<`, which go before
them. A property of the object and the error info it is read from have one
name. A string property which is not set is empty.

The texts of the platform are in `Environment`: what boost's system errors and
the standard exceptions say, and the texts of uuids. The diagnostic dump, the
callback and the error infos which are not transported are left out.
-/
import Baselib.Lib.IntTypes
import Baselib.Lib.TextSearch

namespace Baselib.Data.ServerErrorHelpers

open Lib

/-! ## Error infos -/

inductive IntProperty where
  | errNo
  | systemCode
  | endpointPort
  | httpStatusCode
  | parserLine
  | parserColumn
  | externalCommandExitCode
  | sslIsVerifyError
  | serviceStatus
  | serviceStatusCategory
  deriving DecidableEq

/-- The type of the error info; the property is an `int`. -/
def IntProperty.type : IntProperty → IntType
  | .endpointPort => IntType.unsignedShort
  | .parserLine | .parserColumn => IntType.unsignedInt
  | _ => IntType.int

inductive BoolProperty where
  | isExpected
  | isUserFriendly
  | sslIsVerifyFailed
  deriving DecidableEq

inductive StringProperty where
  | fileName
  | fileOpenMode
  | message
  | timeThrown
  | functionName
  | categoryName
  | errorCodeMessage
  | taskInfo
  | hostName
  | serviceName
  | endpointAddress
  | httpUrl
  | httpRedirectUrl
  | httpResponseHeaders
  | httpRequestDetails
  | parserFile
  | parserReason
  | externalCommandOutput
  | stringValue
  | sslIsVerifyErrorMessage
  | sslIsVerifyErrorString
  | sslIsVerifySubjectName
  | hint
  | originalType
  | originalThreadName
  | originalStackTrace
  | serviceStatusMessage
  deriving DecidableEq

inductive ErrorCategory where
  | generic
  | system
  | other (name : Octets)
  deriving DecidableEq

def ErrorCategory.name : ErrorCategory → Octets
  | .generic => octets "generic"
  | .system => octets "system"
  | .other name => name

structure ErrorCode where
  value : IntType.int.Value
  category : ErrorCategory
  deriving DecidableEq

structure ErrorInfos (υ : Type) where
  ints : (p : IntProperty) → Option p.type.Value
  bools : BoolProperty → Option Bool
  strings : StringProperty → Option Octets
  errorCode : Option ErrorCode
  errorUuid : Option υ

variable {υ : Type}

def ErrorInfos.empty : ErrorInfos υ where
  ints _ := none
  bools _ := none
  strings _ := none
  errorCode := none
  errorUuid := none

/-- The infos after some were attached. -/
def ErrorInfos.attach (infos attached : ErrorInfos υ) : ErrorInfos υ where
  ints p := (attached.ints p).or (infos.ints p)
  bools p := (attached.bools p).or (infos.bools p)
  strings p := (attached.strings p).or (infos.strings p)
  errorCode := attached.errorCode.or infos.errorCode
  errorUuid := attached.errorUuid.or infos.errorUuid

/-! ## Exceptions -/

structure Environment (υ : Type) where
  /-- `error_code::message` -/
  message : ErrorCode → Octets
  /-- What `system_error::what` says of the code. -/
  text : ErrorCode → Octets
  /-- `system_error::what` -/
  systemErrorWhat : Octets → ErrorCode → Octets
  uuid2string : υ → Octets
  isUuid : Octets → Bool
  string2uuid : Octets → υ
  systemErrorWhat_eq : ∀ msg code, msg ≠ [] →
    systemErrorWhat msg code = msg ++ octets ": " ++ text code
  /-- Older versions of boost leave out the separator. -/
  systemErrorWhat_nil : ∀ code,
    systemErrorWhat [] code = text code ∨ systemErrorWhat [] code = octets ": " ++ text code
  isUuid_uuid2string : ∀ uuid, isUuid (uuid2string uuid) = true
  string2uuid_uuid2string : ∀ uuid, string2uuid (uuid2string uuid) = uuid
  isUuid_nil : isUuid [] = false

/-- The types which derive from `BaseExceptionDefault`. -/
inductive ExceptionType where
  | argumentException
  | argumentNullException
  | bufferTooSmallException
  | cacheException
  | externalCommandException
  | httpException
  | httpServerException
  | timeoutException
  | javaException
  | jsonException
  | notFoundException
  | notSupportedException
  | numberCoerceException
  | objectDisconnectedException
  | printableWrapperException
  | securityException
  | serverErrorException
  | serverNoConnectionException
  | unexpectedException
  | xmlException
  | invalidDataFormatException
  | userAuthenticationException
  | userMessageException
  | http2ProtocolException
  | http2StreamException
  deriving DecidableEq

def ExceptionType.fullTypeName : ExceptionType → Octets
  | .argumentException => octets "bl::ArgumentException"
  | .argumentNullException => octets "bl::ArgumentNullException"
  | .bufferTooSmallException => octets "bl::BufferTooSmallException"
  | .cacheException => octets "bl::CacheException"
  | .externalCommandException => octets "bl::ExternalCommandException"
  | .httpException => octets "bl::HttpException"
  | .httpServerException => octets "bl::HttpServerException"
  | .timeoutException => octets "bl::TimeoutException"
  | .javaException => octets "bl::JavaException"
  | .jsonException => octets "bl::JsonException"
  | .notFoundException => octets "bl::NotFoundException"
  | .notSupportedException => octets "bl::NotSupportedException"
  | .numberCoerceException => octets "bl::NumberCoerceException"
  | .objectDisconnectedException => octets "bl::ObjectDisconnectedException"
  | .printableWrapperException => octets "bl::PrintableWrapperException"
  | .securityException => octets "bl::SecurityException"
  | .serverErrorException => octets "bl::ServerErrorException"
  | .serverNoConnectionException => octets "bl::ServerNoConnectionException"
  | .unexpectedException => octets "bl::UnexpectedException"
  | .xmlException => octets "bl::XmlException"
  | .invalidDataFormatException => octets "bl::InvalidDataFormatException"
  | .userAuthenticationException => octets "bl::UserAuthenticationException"
  | .userMessageException => octets "bl::UserMessageException"
  | .http2ProtocolException => octets "bl::Http2ProtocolException"
  | .http2StreamException => octets "bl::Http2StreamException"

/-- What the constructor of the type sets. -/
def ExceptionType.infos : ExceptionType → ErrorInfos υ
  | .userMessageException | .userAuthenticationException =>
    { ErrorInfos.empty with
      bools := fun p => if p = .isUserFriendly then some true else none }
  | _ => ErrorInfos.empty

/-- What `SystemException::create` sets. -/
def systemInfos (env : Environment υ) (code : ErrorCode) : ErrorInfos υ where
  ints
    | .systemCode => if code.category = .system then some code.value else none
    | .errNo => if code.category = .generic then some code.value else none
    | _ => none
  bools _ := none
  strings
    | .categoryName => some code.category.name
    | .errorCodeMessage => if env.message code = [] then none else some (env.message code)
    | _ => none
  errorCode := some code
  errorUuid := none

inductive Exception (υ : Type) where
  /-- One which is not a `BaseException`. -/
  | std (message : Octets) (attached : ErrorInfos υ)
  | default (type : ExceptionType) (attached : ErrorInfos υ)
  /-- `SystemException::create( code, msg )` -/
  | system (msg : Octets) (code : ErrorCode) (attached : ErrorInfos υ)

def Exception.infos (env : Environment υ) : Exception υ → ErrorInfos υ
  | .std _ attached => attached
  | .default type attached => type.infos.attach attached
  | .system _ code attached => (systemInfos env code).attach attached

/-- What is read of a text which is passed as a C string. -/
def cString (s : Octets) : Octets := s.takeWhile (· != 0)

/-- `BaseExceptionDefault::what` -/
def baseExceptionWhat : Option Octets → Octets
  | some message => cString message
  | none => octets "std::exception"

def Exception.what (env : Environment υ) (e : Exception υ) : Octets :=
  match e with
  | .std message _ => cString message
  | .default _ _ => baseExceptionWhat ((e.infos env).strings .message)
  | .system msg code _ => env.systemErrorWhat (cString msg) code

def isUserFriendly (env : Environment υ) (e : Exception υ) : Bool :=
  (e.infos env).bools .isUserFriendly = some true

/-- `BL_GENERIC_FRIENDLY_UNEXPECTED_MSG` -/
def GENERIC_FRIENDLY_UNEXPECTED_MSG : Octets := octets "An unexpected error has occurred"

/-! ## Objects -/

structure ExceptionProperties where
  ints : IntProperty → Option IntType.int.Value
  errorCode : Option IntType.int.Value
  bools : BoolProperty → Option Bool
  strings : StringProperty → Octets
  errorUuid : Octets

structure ServerErrorResult where
  message : Octets
  exceptionType : Octets
  exceptionMessage : Octets
  exceptionProperties : Option ExceptionProperties

structure ServerErrorJson where
  result : Option ServerErrorResult

def maxStackTraceSize : Nat := 4096

def propertiesOf (env : Environment υ) (infos : ErrorInfos υ) : ExceptionProperties where
  ints p :=
    -- The system code is set from the error code first.
    ((infos.ints p).map fun v => IntType.int.cast v).or
      (if p = .systemCode then infos.errorCode.map ErrorCode.value else none)
  errorCode := infos.errorCode.map ErrorCode.value
  bools := infos.bools
  strings p :=
    let value := (infos.strings p).getD []
    if p = .originalStackTrace then value.take maxStackTraceSize else value
  errorUuid := (infos.errorUuid.map env.uuid2string).getD []

def fullTypeName : Exception υ → Octets
  | .std _ _ => octets "std::exception"
  | .default type _ => type.fullTypeName
  | .system _ _ _ => octets "bl::SystemException"

def createServerErrorResultObject (env : Environment υ) (e : Exception υ) : ServerErrorResult where
  message := if isUserFriendly env e then e.what env else GENERIC_FRIENDLY_UNEXPECTED_MSG
  exceptionType := fullTypeName e
  exceptionMessage := e.what env
  exceptionProperties := some (propertiesOf env (e.infos env))

def createServerErrorObject (env : Environment υ) (e : Exception υ) : ServerErrorJson where
  result := some (createServerErrorResultObject env e)

/-! ## Re-creating an exception -/

/-- The infos `exceptionFromProperties` attaches. -/
def infosFrom (env : Environment υ) (properties : ExceptionProperties)
    (errorCategory : Option ErrorCategory) : ErrorInfos υ where
  ints p := (properties.ints p).map fun v => p.type.cast v
  bools := properties.bools
  strings p := if properties.strings p = [] then none else some (properties.strings p)
  errorCode :=
    match errorCategory with
    | some category => properties.errorCode.map fun value => ⟨value, category⟩
    | none => none
  errorUuid :=
    if env.isUuid properties.errorUuid then some (env.string2uuid properties.errorUuid) else none

/-- The categories every process is able to name. -/
def errorCategory (categoryName : Octets) : Option ErrorCategory :=
  if categoryName = octets "generic" then some .generic
  else if categoryName = octets "system" then some .system
  else none

/-- The types in the order in which `createExceptionFromObject` compares their names. -/
def exceptionTypes : List ExceptionType :=
  [.argumentException, .argumentNullException, .bufferTooSmallException, .cacheException,
    .externalCommandException, .httpException, .httpServerException, .timeoutException,
    .javaException, .jsonException, .notFoundException, .notSupportedException,
    .numberCoerceException, .objectDisconnectedException, .printableWrapperException,
    .securityException, .serverErrorException, .serverNoConnectionException, .unexpectedException,
    .xmlException, .invalidDataFormatException, .userAuthenticationException, .userMessageException]

def whatPrefix (exceptionMessage : Octets) : Octets :=
  match findText (octets ": ") exceptionMessage with
  | some pos => exceptionMessage.take pos
  | none => []

/-- The arm for `bl::SystemException`. -/
def createSystemException (env : Environment υ) (result : ServerErrorResult)
    (properties : ExceptionProperties) : Except Octets (Exception υ) :=
  let categoryName := properties.strings .categoryName
  let msg := whatPrefix result.exceptionMessage
  match errorCategory categoryName with
  | some category =>
    match properties.errorCode with
    | some value =>
      .ok (.system msg ⟨value, category⟩ (infosFrom env properties (some category)))
    | none =>
      .error (octets "errorCategory or errorCode properties are not set for SystemException")
  | none =>
    if categoryName = [] then
      .error (octets "errorCategory or errorCode properties are not set for SystemException")
    else
      match (properties.ints .systemCode).or properties.errorCode with
      | some value => .ok (.system msg ⟨value, .system⟩ (infosFrom env properties none))
      | none =>
        .error (octets "Neither systemCode nor errorCode is set for a SystemException whose " ++
          octets "error category '" ++ categoryName ++ octets "' cannot be resolved")

/-- The error is the message of an `ArgumentException`. -/
def createExceptionFromObject (env : Environment υ) (serverErrorJson : ServerErrorJson) :
    Except Octets (Exception υ) :=
  match serverErrorJson.result with
  | none => .error (octets "ServerErrorJson: 'result' property is not set")
  | some result =>
    if result.exceptionType = octets "std::exception" then
      .ok (.std result.exceptionMessage .empty)
    else
      match result.exceptionProperties with
      | none => .error (octets "ServerErrorResult: 'exceptionProperties' property is not set")
      | some properties =>
        let attached := infosFrom env properties (errorCategory (properties.strings .categoryName))
        match exceptionTypes.find? (·.fullTypeName == result.exceptionType) with
        | some type => .ok (.default type attached)
        | none =>
          if result.exceptionType = octets "bl::SystemException" then
            createSystemException env result properties
          else .ok (.default .unexpectedException attached)

end Baselib.Data.ServerErrorHelpers
