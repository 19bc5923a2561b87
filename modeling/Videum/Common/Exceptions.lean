/-!
# Checks of requests, and domain exceptions

`MinLength` and `MaxLength` of the request classes count the characters of a
text in a way of their own.  Every domain failure
(`common/exceptions/domain.exception.ts`) carries an HTTP status, with which
the exception filter answers the client.
-/

namespace Videum.Common

/-! ## The length of a text -/

/-- The variation selectors of text and emoji style. -/
def isVariationSelector (c : Char) : Bool :=
  c.toNat = 0xFE0E || c.toNat = 0xFE0F

/-- How often a variation selector follows another character. -/
def presentationSequences : List Char → Nat
  | a :: b :: rest =>
      (if !isVariationSelector a && isVariationSelector b then 1 else 0) +
        presentationSequences (b :: rest)
  | _ => 0

/-- The length that `MinLength` and `MaxLength` compare: a variation selector
is one with the character it follows. -/
def validatedLength (text : String) : Nat :=
  text.length - presentationSequences text.toList

/-! ## Domain exceptions -/

inductive DomainException
  | EmailAlreadyExists
  | InvalidCredentials
  | EmailNotConfirmed
  | InvalidToken
  | TokenExpired
  | TokenReuseDetected
  | VideoNotFound
  | NotVideoOwner
  | UploadAlreadyFinalized
  | UploadObjectMissing
  | UploadSizeMismatch
  | VideoNotReady
  deriving DecidableEq, Repr

namespace DomainException

def httpStatus : DomainException → Nat
  | EmailAlreadyExists => 409
  | InvalidCredentials => 401
  | EmailNotConfirmed => 403
  | InvalidToken => 401
  | TokenExpired => 401
  | TokenReuseDetected => 401
  | VideoNotFound => 404
  | NotVideoOwner => 403
  | UploadAlreadyFinalized => 409
  | UploadObjectMissing => 422
  | UploadSizeMismatch => 422
  | VideoNotReady => 409

/-- Every domain failure is reported as a client error. -/
theorem httpStatus_client_error (e : DomainException) :
    400 ≤ e.httpStatus ∧ e.httpStatus < 500 := by
  cases e <;> decide

end DomainException

end Videum.Common
