/-!
# Errors

What can go wrong with a job: in talking to the provider, in drawing the output, or around them.
Every error is a cause, and `message` gives its words. What goes wrong inside the program itself is
no error: it panics and comes to nothing at all.
-/

set_option autoImplicit false

namespace Folio

/-- The number of a page of a document, counted from 1. -/
abbrev PageNumber := UInt32

/-- Errors of translating the text of pages through a provider. -/
inductive TranslationError where
  /-- The service is switched off, or the job does not resolve to something that can run. -/
  | configuration (message : String)
  /-- The request failed on its way, or was answered with a status that is no success. -/
  | transport (status : Option Nat) (message : String)
  /-- The provider answered with something else than a reply. -/
  | protocol (message : String)
  /-- The reply lacks pages; their numbers ascend. -/
  | missingPages (missing : List PageNumber)
  /-- The pages are not numbered as they must be. -/
  | invalidInput (message : String)
deriving DecidableEq, Repr

/-- Numbers in brackets, separated by commas. -/
def bracketed (numbers : List PageNumber) : String :=
  "[" ++ ", ".intercalate (numbers.map fun n => n.toNat.repr) ++ "]"

namespace TranslationError

def message : TranslationError → String
  | .configuration message => "Configuration error: " ++ message
  | .transport _ message => "Translation request failed: " ++ message
  | .protocol message => "Unexpected provider response: " ++ message
  | .missingPages missing => "Translation response was missing pages: " ++ bracketed missing
  | .invalidInput message => "Invalid page input: " ++ message

/-- The status that the server answered with, if the error has one. -/
def status? : TranslationError → Option Nat
  | .transport status _ => status
  | _ => none

/-- How many characters of a body an error keeps. -/
def bodyLimit : Nat := 500

end TranslationError

/-- At most `limit` characters of a body, with dots where it was cut. -/
def truncateBody (body : String) (limit : Nat) : String :=
  let chars := body.toList
  if limit < chars.length then String.ofList (chars.take limit) ++ "..." else body

/-- The error for an answer whose status is no success. -/
def TranslationError.ofStatus (status : Nat) (body : String) : TranslationError :=
  .transport (some status)
    s!"Translation request failed with status {status} and body: {truncateBody body bodyLimit}"

/-- Errors of laying out and writing output pages. -/
inductive RenderError where
  /-- The document rejected an operation. -/
  | pdf (message : String)
  /-- The font of the job cannot be loaded or used. -/
  | font (message : String)
deriving DecidableEq, Repr

def RenderError.message : RenderError → String
  | .pdf message => "PDF error: " ++ message
  | .font message => "Font error: " ++ message

/-- Errors of a whole job. -/
inductive AppError where
  | file (message : String)
  | translation (cause : TranslationError)
  | render (cause : RenderError)
  | unknown (message : String)
deriving DecidableEq, Repr

namespace AppError

def message : AppError → String
  | .file message => "File error: " ++ message
  | .translation cause => "Translation error: " ++ cause.message
  | .render cause => "Render error: " ++ cause.message
  | .unknown message => "Unknown error: " ++ message

/-- The words of the error that this one wraps, if it wraps one. -/
def causes : AppError → List String
  | .translation cause => [cause.message]
  | .render cause => [cause.message]
  | _ => []

/-- The status of a wrapped translation error. -/
def status? : AppError → Option Nat
  | .translation cause => cause.status?
  | _ => none

end AppError

/-- An error told as the outermost message and the messages of its causes, from the outside in. -/
structure Failure where
  message : String
  causes : List String
deriving DecidableEq, Repr

namespace Failure

/-- A failure without a cause. -/
def of (message : String) : Failure := ⟨message, []⟩

/-- Puts a message around a failure. -/
def within (failure : Failure) (message : String) : Failure :=
  ⟨message, failure.message :: failure.causes⟩

end Failure

def AppError.toFailure (error : AppError) : Failure :=
  ⟨error.message, error.causes⟩

/-! ### Panics -/

/-- What ends the program on the spot. -/
inductive Panic where
  /-- The sum of two machine words is greater than every machine word. -/
  | overflow
deriving DecidableEq, Repr

def Panic.message : Panic → String
  | .overflow => "attempt to add with overflow"

/-- What is computed unless the program panics on the way. -/
abbrev Checked (α : Type) := Except Panic α

end Folio
