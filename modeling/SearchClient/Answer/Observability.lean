import SearchClient.Answer.Shards

/-!
# Answers about saved observability objects
-/

set_option autoImplicit false
set_option relaxedAutoImplicit false

namespace SearchClient.Answer

open Shape

/-- The id of an object. -/
def objectId : Shape := fields [need "objectId" .text]

/-- The fields of an object that every object has. -/
def objectFields : List (FieldName × Shape) :=
  [need "objectId" .text, maybe "lastUpdatedTimeMs" (.moment .epochMillis),
    maybe "createdTimeMs" (.moment .epochMillis), maybe "tenant" .text]

/-- Objects. -/
def objects : Shape :=
  fields [field "startIndex" count, field "totalHits" count, maybe "totalHitRelation" .text,
    field "observabilityObjectList" (.list (openFields objectFields))]

/-- Objects that have been deleted. -/
def deletedObjects : Shape := fields [field "deleteResponseList" (.map .text)]

/-- For each object the name of its own section, the first in the order of names. -/
def objectTypes (answer : Document) : List (Option String) :=
  ((answer.get? "observabilityObjectList").getD .null).items.map fun object ↦
    (object.members.map (·.1)).find? fun name ↦ !(objectFields.any (·.1.name == name))

end SearchClient.Answer
