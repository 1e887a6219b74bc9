/-
Baselib.Security.AuthorizationServiceRest — the authorization service with a
REST API: `security/AuthorizationServiceRest.h`.

A request is two templates, of the path of the URL and of the content, in
which the variables of the token are substituted. A response is read line by
line. A line is first matched against the patterns of the properties which
are unique, those found already left out, and only then against the pattern
of the token properties. What a pattern matches is a parameter: a function
from a line to the texts of its groups.

Two maps are unordered, so a response is read in an `IterationOrder`: the
order in which the patterns are tried, and the one in which the properties of
the updated token are written. `boost::json::serialize` of a string is a
parameter, too.
-/
import Baselib.Core.InputStream
import Baselib.Core.PropertiesList
import Baselib.Core.SerializationUtils
import Baselib.Core.StringConversions
import Baselib.Core.StringTemplateResolver

namespace Baselib.Security.AuthorizationServiceRest

open Lib Baselib.Core Core.Str
open Core.Uri (isDigit digitsValue toLowerCopy)
open Core.SerializationUtils (Iterators base64Encode base64Decode)
open Core.StringTemplateResolver (Resolver resolve)

inductive PropertyId where
  | sid
  | givenName
  | familyName
  | email
  | typeId
  | updatedTokenProperty
  | updatedTextToken
  | updatedBinaryToken
  | status
  | statusCategory
  | statusMessage
  deriving DecidableEq, Repr

def PropertyId.toString : PropertyId → String
  | sid => "Sid"
  | givenName => "GivenName"
  | familyName => "FamilyName"
  | email => "Email"
  | typeId => "TypeId"
  | updatedTokenProperty => "UpdatedTokenProperty"
  | updatedTextToken => "UpdatedTextToken"
  | updatedBinaryToken => "UpdatedBinaryToken"
  | status => "Status"
  | statusCategory => "StatusCategory"
  | statusMessage => "StatusMessage"

inductive Exception where
  /-- `SecurityException` with its message, which is user friendly. -/
  | security (message : Octets)
  /-- The `SecurityException` of a service which refuses. -/
  | serviceStatus (status : Int) (statusCategory : Option Int) (statusMessage : Option Octets)
      (message : Octets)
  | properties (e : PropertiesException)
  | template (e : StringTemplateResolver.Exception)
  | serialization (e : SerializationUtils.Exception)
  deriving DecidableEq

/-- What `regex_match` answers for a line: the texts of the groups. -/
abbrev Regex := Octets → Option (List Octets)

/-- What is read of `AuthorizationServiceRestConfig`. A property which can be
missing is an `Option`. -/
structure Config where
  isTokenBinary : Bool
  isTokenMultiProperties : Bool
  escapeTemplateVariables : Option Bool
  successStatus : Int
  successStatusCategory : Option Int
  otherSuccessStatuses : List Int
  httpAction : Octets
  contentType : Octets
  /-- The patterns of the properties which are unique. -/
  regex : PropertyId → Regex
  regexUpdatedTokenProperty : Regex

/-! ## Escapers -/

abbrev Escaper := Octets → Octets → Octets

def escapeForUrlPath (_name value : Octets) : Octets := uriEncode value []

variable (serialize : Octets → Octets)

/-- `boost::json::serialize` without the quotes. -/
def escapeForJson (_name value : Octets) : Octets :=
  let quoted := serialize value
  (quoted.drop 1).take (quoted.length - 2)

def escapeForFormUrlEncoded (_name value : Octets) : Octets := uriEncode value []

def escapeXmlCharacter (c : UInt8) : Octets :=
  if c = '&'.toUInt8 then octets "&amp;"
  else if c = '<'.toUInt8 then octets "&lt;"
  else if c = '>'.toUInt8 then octets "&gt;"
  else if c = '"'.toUInt8 then octets "&quot;"
  else if c = '\''.toUInt8 then octets "&apos;"
  else [c]

def escapeForXml (_name value : Octets) : Octets := value.flatMap escapeXmlCharacter

/-- `str::icontains` -/
def icontains (input test : Octets) : Bool :=
  (findText (toLowerCopy test) (toLowerCopy input)).isSome

def getContentEscaper (contentType : Octets) : Option Escaper :=
  if icontains contentType (octets "json") then some (escapeForJson serialize)
  else if icontains contentType (octets "x-www-form-urlencoded") then some escapeForFormUrlEncoded
  else if icontains contentType (octets "xml") then some escapeForXml
  else none

def Config.isEscapeTemplateVariables (config : Config) : Bool :=
  config.escapeTemplateVariables.getD true

/-! ## Requests -/

/-- The service, with the checks its constructor makes. -/
structure Service where
  config : Config
  requestTemplate : Resolver
  urlPathTemplate : Resolver
  httpAction_mem : config.httpAction ∈ [octets "GET", octets "PUT", octets "POST"]
  not_both : ¬ (config.isTokenBinary ∧ config.isTokenMultiProperties)
  escapes : config.isEscapeTemplateVariables →
    (getContentEscaper serialize config.contentType).isSome

def binaryTokenName : Octets := octets "$binaryToken"

def textTokenName : Octets := octets "$textToken"

def invalidCharacter : Exception :=
  .security (octets "The authentication token contains an invalid character")

def chkTokenText (value : Octets) : Except Exception Unit :=
  if value.all fun c => c ≠ '\r'.toUInt8 ∧ c ≠ '\n'.toUInt8 ∧ c ≠ 0 then .ok ()
  else .error invalidCharacter

/-- The properties of a text token, if it has any. -/
def tokenPropertiesOf (config : Config) (textToken : Octets) : Except Exception Properties :=
  if config.isTokenMultiProperties then (parsePropertiesList textToken).mapError .properties
  else .ok []

/-- The variables of a token, as `createAuthorizationTask` makes them. -/
def variablesOf (it : Iterators) (config : Config) (authenticationToken : Octets) :
    Except Exception Properties :=
  if config.isTokenBinary then
    .ok ([(binaryTokenName, base64Encode it authenticationToken)])
  else do
    chkTokenText authenticationToken
    let properties ← tokenPropertiesOf config authenticationToken
    return properties.emplace textTokenName authenticationToken

/-- The task of `createAuthorizationTask`. -/
structure Request where
  urlPath : Octets
  action : Octets
  content : Octets
  contentType : Octets
  deriving DecidableEq

variable {serialize} in
def createAuthorizationTask (it : Iterators) (service : Service serialize)
    (authenticationToken : Octets) : Except Exception Request := do
  let config := service.config
  let templateVariables ← variablesOf it config authenticationToken
  let escape := config.isEscapeTemplateVariables
  let urlPathEscaper := if escape then some escapeForUrlPath else none
  let contentEscaper := if escape then getContentEscaper serialize config.contentType else none
  let urlPath ←
    (resolve service.urlPathTemplate templateVariables.value urlPathEscaper).mapError .template
  let content ←
    (resolve service.requestTemplate templateVariables.value contentEscaper).mapError .template
  return ⟨urlPath, config.httpAction, content, config.contentType⟩

/-! ## Responses -/

/-- The values of `property_info_t`, but for the pattern. -/
structure PropertyInfo where
  isRequired : Bool
  isFound : Bool
  value : Octets
  deriving DecidableEq

abbrev UniqueProperties := PropertyId → PropertyInfo

/-- The keys of the map of `getUniqueProperties`. -/
def uniquePropertyIds : List PropertyId :=
  [.sid, .givenName, .familyName, .email, .typeId, .updatedTextToken, .updatedBinaryToken, .status,
    .statusCategory, .statusMessage]

def getUniqueProperties : UniqueProperties
  | .sid | .status => ⟨true, false, []⟩
  | _ => ⟨false, false, []⟩

structure IterationOrder where
  /-- The order of `uniqueProperties`. -/
  uniqueProperties : List PropertyId
  uniqueProperties_perm : uniqueProperties.Perm uniquePropertyIds
  /-- The order of `tokenProperties`. -/
  tokenProperties : Properties → Properties
  tokenProperties_perm : ∀ properties, (tokenProperties properties).Perm properties

def couldNotBeParsed (propertyId : PropertyId) (isRequired : Bool) : Exception :=
  .security (octets "A " ++ (if isRequired then octets "required " else []) ++
    octets "property with name '" ++ octets propertyId.toString ++
    octets "' could not be parsed from an authorization response")

def chkProperty (condition : Bool) (propertyId : PropertyId) (isRequired : Bool := false) :
    Except Exception Unit :=
  if condition then .ok () else .error (couldNotBeParsed propertyId isRequired)

def oneGroupOnly : Exception :=
  .security (octets <| "Regular expression pattern in the authorization config " ++
    "is expected to have one group only")

def exactlyTwoGroups : Exception :=
  .security (octets <| "Regular expression pattern for token property in authorization " ++
    "config is expected to have exactly two groups")

def emptyTokenPropertyName : Exception :=
  .security (octets "Token property name parsed from authorization response can't be empty")

def emptyTokenPropertyValue : Exception :=
  .security (octets "Token property value parsed from authorization response can't be empty")

/-- The loop over `uniqueProperties` for a line; `none` when no pattern
matches it. -/
def matchUnique (config : Config) (uniqueProperties : UniqueProperties) (line : Octets) :
    List PropertyId → Except Exception (Option UniqueProperties)
  | [] => .ok none
  | id :: ids =>
    let info := uniqueProperties id
    if info.isFound then matchUnique config uniqueProperties line ids
    else
      match config.regex id line with
      | none => matchUnique config uniqueProperties line ids
      | some [value] =>
        .ok (some (Function.update uniqueProperties id ⟨info.isRequired, true, value⟩))
      | some _ => .error oneGroupOnly

def matchToken (config : Config) (line : Octets) (tokenProperties : Properties) :
    Except Exception Properties :=
  if ¬ config.isTokenBinary ∧ config.isTokenMultiProperties then
    match config.regexUpdatedTokenProperty line with
    | none => .ok tokenProperties
    | some [propertyName, propertyValue] =>
      if propertyName = [] then .error emptyTokenPropertyName
      else if propertyValue = [] then .error emptyTokenPropertyValue
      else .ok (tokenProperties.emplace propertyName propertyValue)
    | some _ => .error exactlyTwoGroups
  else .ok tokenProperties

/-- One turn of the loop over the lines. -/
def readLine (config : Config) (order : IterationOrder) (found : UniqueProperties × Properties)
    (line : Octets) : Except Exception (UniqueProperties × Properties) :=
  let line := trim line
  if line = [] then .ok found
  else do
    match ← matchUnique config found.1 line order.uniqueProperties with
    | some uniqueProperties => return (uniqueProperties, found.2)
    | none => return (found.1, ← matchToken config line found.2)

/-- The lines `std::getline` gives while the stream is good. -/
def getlines (content : Octets) : List Octets := content.splitOn InputStream.lineFeed

/-- Carriage returns are removed before a response is read. -/
def linesOf (content : Octets) : List Octets := getlines (content.filter (· ≠ '\r'.toUInt8))

def readLines (config : Config) (order : IterationOrder) (content : Octets) :
    Except Exception (UniqueProperties × Properties) :=
  (linesOf content).foldlM (readLine config order) (getUniqueProperties, [])

/-- The number of an `int` of 32 bits. -/
def int32 (negative : Bool) (digits : Octets) : Option Int :=
  if digits ≠ [] ∧ digits.all isDigit then
    if negative then
      if digitsValue digits ≤ 2147483648 then some (-(digitsValue digits : Int)) else none
    else if digitsValue digits ≤ 2147483647 then some (digitsValue digits : Int)
    else none
  else none

/-- `utils::try_lexical_convert< int >` -/
def tryLexicalConvert : Octets → Option Int
  | [] => none
  | ch :: rest =>
    if ch = '-'.toUInt8 then int32 true rest
    else if ch = '+'.toUInt8 then int32 false rest
    else int32 false (ch :: rest)

def convertProperty (uniqueProperties : UniqueProperties) (propertyId : PropertyId) :
    Except Exception Int :=
  match tryLexicalConvert (uniqueProperties propertyId).value with
  | some value => .ok value
  | none => .error (couldNotBeParsed propertyId false)

/-- The number of a property which was found. -/
def convertFound (uniqueProperties : UniqueProperties) (propertyId : PropertyId) :
    Except Exception (Option Int) :=
  if (uniqueProperties propertyId).isFound then
    (convertProperty uniqueProperties propertyId).map some
  else .ok none

def decimal (n : Int) : Octets := octets (toString n)

def serviceFailed (status : Int) (statusCategory : Option Int) (statusMessage : Option Octets) :
    Exception :=
  .serviceStatus status statusCategory statusMessage
    (octets "Authorization service failed with the following error details: " ++
      octets "[status='" ++ decimal status ++
      (match statusCategory with
      | some category => octets "'; statusCategory='" ++ decimal category
      | none => []) ++
      (match statusMessage with
      | some message => octets "'; message='" ++ message
      | none => []) ++
      octets "']")

def isSuccess (config : Config) (status : Int) (statusCategory : Option Int) : Bool :=
  (config.successStatus = status ∨ status ∈ config.otherSuccessStatuses) ∧
    ∀ successCategory ∈ config.successStatusCategory, ∀ category ∈ statusCategory,
      successCategory = category

/-- The checks of the status. -/
def chkStatus (config : Config) (uniqueProperties : UniqueProperties) : Except Exception Unit := do
  chkProperty (uniqueProperties .status).isFound .status true
  let status ← convertProperty uniqueProperties .status
  chkProperty (config.successStatusCategory.isNone || (uniqueProperties .statusCategory).isFound)
    .statusCategory
  let statusCategory ← convertFound uniqueProperties .statusCategory
  let messageData := uniqueProperties .statusMessage
  let statusMessage := if messageData.isFound then some messageData.value else none
  if isSuccess config status statusCategory then .ok ()
  else .error (serviceFailed status statusCategory statusMessage)

/-- The loop which makes sure that what is required was found. -/
def chkRequired (uniqueProperties : UniqueProperties) : List PropertyId → Except Exception Unit
  | [] => .ok ()
  | id :: ids => do
      let info := uniqueProperties id
      chkProperty (!info.isRequired || info.isFound) id true
      chkRequired uniqueProperties ids

def updatedToken (it : Iterators) (config : Config) (order : IterationOrder)
    (uniqueProperties : UniqueProperties) (tokenProperties : Properties) :
    Except Exception (Option Octets) :=
  if config.isTokenBinary then
    let data := uniqueProperties .updatedBinaryToken
    if data.isFound then do
      let tokenBinaryData ← (base64Decode it data.value).mapError .serialization
      chkProperty (0 < tokenBinaryData.length) .updatedBinaryToken
      return some tokenBinaryData
    else .ok none
  else if config.isTokenMultiProperties then
    if tokenProperties = [] then .ok none
    else .ok (some (joinProperties ';'.toUInt8 (order.tokenProperties tokenProperties)))
  else
    let data := uniqueProperties .updatedTextToken
    if data.isFound then do
      chkProperty (0 < data.value.length) .updatedTextToken
      return some data.value
    else .ok none

structure SecurityPrincipal where
  sid : Octets
  givenName : Octets
  familyName : Octets
  email : Octets
  typeId : Octets
  authenticationToken : Option Octets
  deriving DecidableEq

def extractSecurityPrincipal (it : Iterators) (config : Config) (order : IterationOrder)
    (content : Octets) : Except Exception SecurityPrincipal := do
  let (uniqueProperties, tokenProperties) ← readLines config order content
  chkStatus config uniqueProperties
  chkRequired uniqueProperties order.uniqueProperties
  let updatedAuthenticationToken ←
    updatedToken it config order uniqueProperties tokenProperties
  return {
    sid := (uniqueProperties .sid).value
    givenName := (uniqueProperties .givenName).value
    familyName := (uniqueProperties .familyName).value
    email := (uniqueProperties .email).value
    typeId := (uniqueProperties .typeId).value
    authenticationToken := updatedAuthenticationToken }

end Baselib.Security.AuthorizationServiceRest
