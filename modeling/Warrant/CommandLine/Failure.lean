import Warrant.Delegation.File
import Warrant.Exchange.Request
import Warrant.Policy.Verdict

/-! Why a command fails, as a chain of complaints from the outermost to the innermost. -/

namespace Warrant

/-- A complaint of a chain: our own words, or those of a reader of files or of the system, which are
not ours to lay down. -/
inductive Complaint where
  | own (words : String)
  | foreign
deriving DecidableEq

/-- Why a command fails. -/
inductive Failure where
  | unreadable (path : String)
  | unparsable (path : String)
  | rule (cause : SpecFault)
  | delegation (cause : DelegationFault)
  | assembly (cause : AssemblyError)
  | previewStored
  | unstored (path : String)
  | unverified (path : String) (cause : VerificationFault)
  | noKey (setting : String) (cause : CryptoError)
  | request (cause : RequestError)
deriving DecidableEq

/-- The complaints about a text of policies. -/
def VerificationFault.chain : VerificationFault → List Complaint
  | .notJson => [.foreign]
  | .policy cause => [.own cause.message]

/-- The complaints about keys or signatures, which go on where base64 was at fault. -/
def CryptoError.chain (e : CryptoError) : List Complaint :=
  .own e.message :: if e = .base64 then [.foreign] else []

/-- The complaints of a failure, the outermost first. -/
def Failure.chain : Failure → List Complaint
  | .unreadable path => [.own ("failed to read " ++ path), .foreign]
  | .unparsable path => [.own ("failed to parse " ++ path), .foreign]
  | .rule cause => cause.chain.map .own
  | .delegation cause => cause.chain.map .own
  | .assembly cause => [.own cause.message]
  | .previewStored => [.own "preview policies cannot be stored"]
  | .unstored path => [.own ("failed to store policies in " ++ path), .foreign]
  | .unverified path cause => .own ("failed to verify " ++ path) :: cause.chain
  | .noKey setting cause => .own ("failed to load signing key from $" ++ setting) :: cause.chain
  | .request (.crypto cause) => cause.chain
  | .request cause => [.own cause.message]

end Warrant
