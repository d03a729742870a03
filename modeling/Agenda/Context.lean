import Agenda.Json.Tagged
import Agenda.Shard

/-!
Contexts: the courses and groups that own learning objects. A course and a group of the same
number are different contexts, and courses come first.
-/

namespace Agenda

inductive Context where
  | course (id : CourseId)
  | group (id : GroupId)
deriving DecidableEq, Repr

inductive ContextType where
  | course
  | group
deriving DecidableEq, Repr

namespace ContextType

instance : Vocabulary ContextType where
  all := [.course, .group]
  name
    | .course => "course"
    | .group => "group"

end ContextType

namespace Context

def course? : Context → Option CourseId
  | .course id => some id
  | .group _ => none

def group? : Context → Option GroupId
  | .course _ => none
  | .group id => some id

/-- The text that stands for a context in cache keys, and for its name when it has none. -/
def assetText : Context → String
  | .course id => "course_" ++ id.text
  | .group id => "group_" ++ id.text

def shard : Context → ShardId
  | .course id => id.shard
  | .group id => id.shard

instance : Sharded Context := ⟨shard⟩

instance : Ranked Context where
  rank
    | .course id => (0, id.global.value)
    | .group id => (1, id.global.value)
  rank_injective := by
    rintro (⟨⟨left, _⟩⟩ | ⟨⟨left, _⟩⟩) (⟨⟨right, _⟩⟩ | ⟨⟨right, _⟩⟩) same <;> simp_all

def format : TaggedFormat ContextType Context where
  tagName := "type"
  contentName := "id"
  write
    | .course id => (.course, JsonFormat.encode id)
    | .group id => (.group, JsonFormat.encode id)
  content
    | .course, document => (JsonFormat.decode document).map .course
    | .group, document => (JsonFormat.decode document).map .group

instance : JsonFormat Context := format.jsonFormat

end Context

end Agenda
