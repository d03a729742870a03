import Agenda.Json.Format

/-!
Purposes, for which a learning object can stand on a to-do list, and the kinds of learning objects.
-/

namespace Agenda

inductive Purpose where
  | grading
  | moderation
  | submitting
  | reviewing
  | viewing
  | submitted
deriving DecidableEq, Repr

inductive ObjectKind where
  | assignment
  | subAssignment
  | quiz
  | discussionTopic
  | wikiPage
  | assessmentRequest
deriving DecidableEq, Repr

inductive UnknownTerm where
  | purpose (word : String)
  | objectKind (word : String)
deriving DecidableEq, Repr

namespace UnknownTerm

def message : UnknownTerm → String
  | .purpose word => "unknown to-do purpose: " ++ word
  | .objectKind word => "unsupported learning object kind: " ++ word

end UnknownTerm

namespace Purpose

instance : Vocabulary Purpose where
  all := [.grading, .moderation, .submitting, .reviewing, .viewing, .submitted]
  name
    | .grading => "grading"
    | .moderation => "moderation"
    | .submitting => "submitting"
    | .reviewing => "reviewing"
    | .viewing => "viewing"
    | .submitted => "submitted"

def name (purpose : Purpose) : String :=
  Vocabulary.name purpose

def ofName (word : String) : Except UnknownTerm Purpose :=
  match Vocabulary.ofName? word with
  | some purpose => .ok purpose
  | none => .error (.purpose word)

end Purpose

namespace ObjectKind

instance : Vocabulary ObjectKind where
  all := [.assignment, .subAssignment, .quiz, .discussionTopic, .wikiPage, .assessmentRequest]
  name
    | .assignment => "assignment"
    | .subAssignment => "sub_assignment"
    | .quiz => "quiz"
    | .discussionTopic => "discussion_topic"
    | .wikiPage => "wiki_page"
    | .assessmentRequest => "assessment_request"

def name (kind : ObjectKind) : String :=
  Vocabulary.name kind

def ofName (word : String) : Except UnknownTerm ObjectKind :=
  match Vocabulary.ofName? word with
  | some kind => .ok kind
  | none => .error (.objectKind word)

def namespaceText (kind : ObjectKind) (purpose : Purpose) : String :=
  kind.name ++ "_" ++ purpose.name

end ObjectKind

end Agenda
