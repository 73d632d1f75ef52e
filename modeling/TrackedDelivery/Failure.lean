import TrackedDelivery.Config.Basic
import TrackedDelivery.Position
/-!
# Failures of a source

Why a call to a source or to a tracker failed, as a cause with one wording. The failures of the
broker are a parameter.
-/
namespace TrackedDelivery

variable {ε : Type}

/-- Why one acknowledgment failed. -/
inductive AckError (ε : Type)
  | malformedPosition (cause : Position.Error)
  /-- The position names another subscription, or a message that is not pending. -/
  | notFound (messageId : String)
  | rejected (messageId : String) (cause : ε)
  deriving DecidableEq, Repr

inductive SourceError (ε : Type)
  | config (cause : Config.Error)
  | notConfigured
  | notOpen
  | connect (cause : ε)
  | subscribe (cause : ε)
  | malformedPosition (cause : Position.Error)
  | subscriptionMismatch (position configured : String)
  | receive (cause : ε)
  | acknowledge (cause : AckError ε)
  /-- The failures of several acknowledgments, each with its place among them. -/
  | batch (failures : List (Nat × AckError ε))
  deriving DecidableEq, Repr

namespace AckError

def message (describe : ε → String) : AckError ε → String
  | malformedPosition cause => s!"malformed position: {cause.message}"
  | notFound id => s!"message not found for position: {id}"
  | rejected id cause => s!"failed to acknowledge message {id}: {describe cause}"

/-- The wording of what lies behind the failure, if anything does. -/
def cause (describe : ε → String) : AckError ε → Option String
  | malformedPosition cause => some cause.message
  | notFound _ => none
  | rejected _ cause => some (describe cause)

def isNotFound : AckError ε → Bool
  | notFound _ => true
  | _ => false

end AckError

namespace SourceError

def message (describe : ε → String) : SourceError ε → String
  | config cause => s!"failed to parse config: {cause.message}"
  | notConfigured => "source has not been configured"
  | notOpen => "source is not open"
  | connect cause => s!"failed to create client: {describe cause}"
  | subscribe cause => s!"failed to create consumer: {describe cause}"
  | malformedPosition cause => s!"malformed position: {cause.message}"
  | subscriptionMismatch position configured =>
      "the old position contains a different subscription name than the connector "
        ++ s!"configuration ({Text.quoted position} vs {Text.quoted configured}), "
        ++ "please check if the configured subscription name changed since the last run"
  | receive cause => s!"failed to receive message: {describe cause}"
  | acknowledge cause => cause.message describe
  | batch failures =>
      failures.foldl (fun text p => text ++ s!"; [{p.1}] " ++ p.2.message describe)
        s!"{failures.length} acknowledgment(s) failed"

def cause (describe : ε → String) : SourceError ε → Option String
  | config cause => some cause.message
  | malformedPosition cause => some cause.message
  | connect cause | subscribe cause | receive cause => some (describe cause)
  | acknowledge error => error.cause describe
  | notConfigured | notOpen | subscriptionMismatch .. | batch _ => none

def isNotFound : SourceError ε → Bool
  | acknowledge error => error.isNotFound
  | _ => false

end SourceError
end TrackedDelivery
