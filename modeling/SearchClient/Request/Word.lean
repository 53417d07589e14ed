import SearchClient.Json.Basic

/-!
# Words with a fixed choice

Some parameters take one of a few words. A vocabulary lists them; anything else is refused with the
words that would have done.
-/

set_option autoImplicit false
set_option relaxedAutoImplicit false

namespace SearchClient

/-- A kind of word and its words, in their order. -/
structure Vocabulary where
  kind : String
  words : List String
  deriving DecidableEq, Repr, Inhabited

/-- A text that is none of the words asked for. -/
structure UnknownWord where
  kind : String
  found : String
  expected : String
  deriving DecidableEq, Repr, Inhabited

def UnknownWord.message (e : UnknownWord) : String :=
  "'" ++ e.found ++ "' is not a valid " ++ e.kind ++ "; expected one of: " ++ e.expected

namespace Vocabulary

/-- The word that a text is. -/
def parse (v : Vocabulary) (text : String) : Except UnknownWord String :=
  if v.words.contains text then .ok text
  else .error ⟨v.kind, text, ", ".intercalate v.words⟩

/-- Whether a document gives a word. -/
def accepts (v : Vocabulary) : Json → Bool
  | .string s => v.words.contains s
  | _ => false

/-- Which indices a pattern stands for. -/
def expandWildcards : Vocabulary := ⟨"ExpandWildcards", ["all", "open", "closed", "hidden", "none"]⟩

/-- How much an answer about health or figures tells. -/
def level : Vocabulary := ⟨"Level", ["cluster", "indices", "shards", "awareness_attributes"]⟩

def healthStatus : Vocabulary := ⟨"HealthStatus", ["green", "yellow", "red"]⟩

/-- When a change is seen by searches. -/
def refresh : Vocabulary := ⟨"Refresh", ["true", "false", "wait_for"]⟩

def opType : Vocabulary := ⟨"OpType", ["index", "create"]⟩

def versionType : Vocabulary :=
  ⟨"VersionType", ["internal", "external", "external_gte", "force"]⟩

/-- The units of sizes in tables. -/
def byteUnit : Vocabulary :=
  ⟨"Bytes", ["b", "k", "kb", "m", "mb", "g", "gb", "t", "tb", "p", "pb"]⟩

def waitForEvents : Vocabulary :=
  ⟨"WaitForEvents", ["immediate", "urgent", "high", "normal", "low", "languid"]⟩

def sortOrder : Vocabulary := ⟨"SortOrder", ["asc", "desc"]⟩

/-- The tables that the cluster offers. -/
def table : Vocabulary :=
  ⟨"CatApi", ["aliases", "allocation", "count", "health", "indices", "nodes", "pending_tasks",
    "plugins", "recovery", "repositories", "segments", "shards", "snapshots", "tasks", "templates",
    "thread_pool"]⟩

/-- All vocabularies. -/
def all : List Vocabulary :=
  [expandWildcards, level, healthStatus, refresh, opType, versionType, byteUnit, waitForEvents,
    sortOrder, table]

end Vocabulary

end SearchClient
