import SearchClient.Answer.Shards

/-!
# Answers about indices, aliases and templates
-/

set_option autoImplicit false
set_option relaxedAutoImplicit false

namespace SearchClient.Answer

open Shape

/-- An alias of an index. -/
def aliasDefinition : Shape :=
  fields [maybe "filter" .any, maybe "index_routing" .text, maybe "search_routing" .text,
    maybe "is_write_index" .boolean, maybe "is_hidden" .boolean]

/-- Indices with their aliases, mappings and settings. -/
def indexStates : Shape :=
  .map (fields [field "aliases" (.map aliasDefinition), field "mappings" .any,
    field "settings" .any])

/-- Indices with their aliases. -/
def indexAliases : Shape := .map (fields [field "aliases" (.map aliasDefinition)])

/-- Indices with their mappings. -/
def indexMappings : Shape := .map (fields [field "mappings" .any])

/-- Indices with their settings. -/
def indexSettings : Shape := .map (fields [field "settings" .any, maybe "defaults" .any])

/-- Indices that have been refreshed. -/
def refreshed : Shape := fields [field "_shards" shardStatistics]

/-- Indices that have been closed. -/
def closed : Shape :=
  fields [field "acknowledged" .boolean, field "shards_acknowledged" .boolean,
    field "indices" (.map .any)]

/-- A template for new indices. -/
def indexTemplate : Shape :=
  fields [field "index_patterns" (.list .text), orNothing "template" .any,
    unlessEmpty "composed_of" (.list .text), orNothing "priority" signed,
    orNothing "version" signed, orNothing "_meta" .any, orNothing "data_stream" .any]

/-- Templates with their names. -/
def indexTemplates : Shape :=
  fields [field "index_templates"
    (.list (fields [need "name" .text, need "index_template" indexTemplate]))]

/-- An alias and the index it stands for. -/
def aliasTarget : Shape :=
  fields [need "index" .text, need "alias" .text, orNothing "filter" .any,
    orNothing "routing" .text, orNothing "is_write_index" .boolean]

/-- A change of aliases. -/
def aliasAction : Shape :=
  .choice [("add", aliasTarget), ("remove", aliasTarget),
    ("remove_index", fields [need "index" .text])]

end SearchClient.Answer
