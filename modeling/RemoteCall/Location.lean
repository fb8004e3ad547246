import RemoteCall.Net.Address
import RemoteCall.Error

/-!
# Locations

A location says where a service lives: `local://address` names one address, and
`discovery://endpoint/service` an entry of a directory. `Location.parse` reads what `Location.text`
writes.
-/

namespace RemoteCall

/-- Where a service lives. -/
inductive Location where
  | address (a : SocketAddress)
  /-- The entry of a service in the directory of an endpoint. -/
  | directory (endpoint service : String)
  deriving DecidableEq, Repr

namespace Location

/-- The scheme of a single address. -/
def addressScheme : String := "local"

/-- The scheme of a directory entry. -/
def directoryScheme : String := "discovery"

/-- The text of the location. -/
def text : Location → String
  | address a => addressScheme ++ "://" ++ a.text
  | directory endpoint service => directoryScheme ++ "://" ++ endpoint ++ "/" ++ service

/-- The location is a single address. -/
def isAddress : Location → Bool
  | address _ => true
  | directory _ _ => false

/-- Why a text is no location. -/
inductive Failure where
  | noScheme
  | unknownScheme (scheme : String)
  | badAddress (failure : SocketAddress.Failure)
  /-- There is no slash between endpoint and service. -/
  | noService
  | emptyPart
  deriving DecidableEq, Repr

/-- The failure of reading `s` as an error. -/
def Failure.toError (s : String) : Failure → Error
  | noScheme => .ofFault .clientError s!"location '{s}' has no scheme"
  | unknownScheme scheme => .ofFault .clientError s!"unsupported location scheme '{scheme}'"
  | badAddress failure => .invalidLocation s!"'{s}': {failure.message}"
  | noService =>
    .invalidLocation s!"'{s}' must look like discovery://endpoint/serviceName"
  | emptyPart => .invalidLocation s!"'{s}' has an empty endpoint or service name"

/-- Splits at the first `://`. -/
def splitScheme? : List Char → Option (List Char × List Char)
  | [] => none
  | ':' :: '/' :: '/' :: rest => some ([], rest)
  | c :: rest => (splitScheme? rest).map fun (scheme, rest) => (c :: scheme, rest)

/-- Reads what follows the scheme of a directory entry. -/
def parseEntry (rest : List Char) : Except Failure Location :=
  match SocketAddress.splitLast? '/' rest with
  | none => .error .noService
  | some (endpoint, service) =>
    if endpoint.isEmpty ∨ service.isEmpty then .error .emptyPart
    else .ok (directory (String.ofList endpoint) (String.ofList service))

/-- Reads a location, or says why it is none. -/
def parseChars (cs : List Char) : Except Failure Location :=
  match splitScheme? cs with
  | none => .error .noScheme
  | some (scheme, rest) =>
    if String.ofList scheme = addressScheme then
      ((SocketAddress.resolve (String.ofList rest)).map address).mapError .badAddress
    else if String.ofList scheme = directoryScheme then parseEntry rest
    else .error (.unknownScheme (String.ofList scheme))

/-- Reads a location. -/
def parse (s : String) : Except Error Location :=
  (parseChars s.toList).mapError (Failure.toError s)

end Location

end RemoteCall
