/-
Baselib.Core.UriResolve — the origin of a URI, and the resolution of a
reference against a base, of `baselib/core/Uri.h`.

Both refuse some references with an `ArgumentException`, whose text is
the source's. `resolve` fills in one object in the order of RFC 3986
section 5.2.2.
-/
import Baselib.Core.Uri

namespace Baselib.Core

open Lib

structure ArgumentException where
  message : String
  deriving DecidableEq, Repr

namespace Uri

/-! ## Origins -/

/-- `os::port_t` is 16 bits wide. -/
def defaultPort (scheme : Octets) : UInt16 :=
  if scheme = octets "http" then 80
  else if scheme = octets "https" then 443
  else 0

def effectivePort (u : Uri) : UInt16 := if u.hasPort then u.port else defaultPort u.scheme

def origin (u : Uri) : Except ArgumentException Octets :=
  if u.scheme.isEmpty then
    .error ⟨"The origin of a URI reference is only defined for an absolute URI, " ++
      "and this reference carries no scheme"⟩
  else if u.host.isEmpty then
    .error ⟨"The origin of a URI reference is only defined for a URI with a host, " ++
      "and this one carries none"⟩
  else
    .ok (u.scheme ++ octets "://" ++ u.hostForAuthority ++
      if 0 ≠ u.effectivePort then ':'.toUInt8 :: toDecimal u.effectivePort.toNat else [])

/-! ## Reference resolution (section 5) -/

def mergePaths (base : Uri) (refPath : Octets) : Octets :=
  if base.hasAuthority && base.path.isEmpty then octets "/" ++ refPath
  else
    match rfind base.path '/'.toUInt8 with
    | none => refPath
    | some pos => base.path.take (pos + 1) ++ refPath

def copyAuthorityFrom (u other : Uri) : Uri := { u with
  hasAuthority := other.hasAuthority
  userInfo := other.userInfo
  hasUserInfo := other.hasUserInfo
  host := other.host
  isIpLiteral := other.isIpLiteral
  port := other.port
  hasPort := other.hasPort }

def copyQueryFrom (u other : Uri) : Uri := { u with
  query := other.query
  hasQuery := other.hasQuery }

def resolve (base reference : Uri) : Except ArgumentException Uri :=
  if base.scheme.isEmpty then
    .error ⟨"The base of a URI reference resolution must be an absolute URI"⟩
  else
    let result : Uri :=
      if !reference.scheme.isEmpty then
        copyQueryFrom { copyAuthorityFrom { scheme := reference.scheme } reference with
          path := removeDotSegments reference.path } reference
      else
        let result : Uri :=
          if reference.hasAuthority then
            copyQueryFrom { copyAuthorityFrom {} reference with
              path := removeDotSegments reference.path } reference
          else
            let result : Uri :=
              if reference.path.isEmpty then
                copyQueryFrom { path := base.path } (if reference.hasQuery then reference else base)
              else
                copyQueryFrom { path :=
                  if reference.path.head? = some '/'.toUInt8 then removeDotSegments reference.path
                  else removeDotSegments (mergePaths base reference.path) } reference
            copyAuthorityFrom result base
        { result with scheme := base.scheme }
    .ok { result with
      fragment := reference.fragment
      hasFragment := reference.hasFragment }

end Uri

end Baselib.Core
