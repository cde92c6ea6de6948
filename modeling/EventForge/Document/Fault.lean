/-!
# Why a document is refused

Every refusal has a message, a code and, for some, a hint on how to mend the document.
-/

namespace EventForge.Document

inductive Fault where
  | unreadable (path : String)
  | malformed
  | rootShape (expected found : String)
  | missingField (field location : String)
  | invalidField (field location expected : String)
  | invalidId (value location : String)
  deriving DecidableEq, Repr

namespace Fault

def message : Fault → String
  | unreadable path => "failed to read '" ++ path ++ "'"
  | malformed => "failed to parse event model JSON"
  | rootShape expected found => "expected " ++ expected ++ ", found " ++ found
  | missingField field location => "missing required field '" ++ field ++ "' in " ++ location
  | invalidField field location expected =>
    "field '" ++ field ++ "' in " ++ location ++ " must be " ++ expected
  | invalidId value location => "invalid identifier '" ++ value ++ "' in " ++ location

def code : Fault → String
  | unreadable _ => "eventmill::io"
  | malformed => "eventmill::syntax"
  | rootShape _ _ => "eventmill::root_shape"
  | missingField _ _ => "eventmill::missing_field"
  | invalidField _ _ _ => "eventmill::invalid_field"
  | invalidId _ _ => "eventmill::invalid_uuid"

def hint? : Fault → Option String
  | unreadable _ => some "check that the file exists and is readable"
  | rootShape _ _ =>
    some "the document root must be an object with an 'event-model' object inside"
  | invalidId _ _ =>
    some "identifiers must be UUIDs, e.g. 'e3b0c442-98fc-1c14-9afb-4c8996fb9242'"
  | _ => none

end Fault

end EventForge.Document
