/-
# PluginVet.References.Expected — relationships that mappings should declare

A typed reference is a mapping entry that describes another entity: an object with the entity's id as
its only key and an identifying field inside. Some entities are expected to have references to certain
others, and some references to stand next to flat fields for display.
-/
import PluginVet.Manifest.Basic

namespace PluginVet.References

/-- A reference that mappings of an entity should hold. -/
structure Expectation where
  /-- The usual name of the entry. -/
  field : String
  /-- The entity that is referred to. -/
  target : String
  reason : String
  optional : Bool
  deriving DecidableEq, Repr

/-- **`expected entity`** — the references expected in mappings of an entity. -/
def expected (entity : String) : List Expectation :=
  match entity with
  | "post" => [⟨"posted_by", "person", "Posts have authors", false⟩]
  | "message" => [⟨"from", "person", "Messages have senders", false⟩]
  | "conversation" => [⟨"participant", "person", "Conversations have participants", false⟩]
  | "comment" => [⟨"posted_by", "person", "Comments have authors", false⟩]
  | "video" => [⟨"creator", "person", "Videos have creators", false⟩]
  | "task" => [⟨"assignee", "person", "Tasks can have assignees", true⟩]
  | "event" => [⟨"attendee", "person", "Events have attendees", true⟩]
  | _ => []

/-- **`displayFields field`** — the flat entries expected beside a reference stored under `field`. -/
def displayFields (field : String) : List String :=
  match field with
  | "posted_by" => ["author.name", "author.url"]
  | "created_by" => ["creator.name", "creator.url"]
  | "creator" => ["creator.name", "creator.url"]
  | "assignee" => ["assignee.name"]
  | _ => []

/-- Keys that identify an entity. -/
def identityFields : List String := ["id", "name", "phone", "email", "username"]

/-- **`target?`** — the entity that a typed reference refers to. -/
def target? : MappingValue → Option String
  | .reference [(target, .reference fields)] =>
    if fields.any fun f => identityFields.contains f.1 then some target else none
  | _ => none

end PluginVet.References
