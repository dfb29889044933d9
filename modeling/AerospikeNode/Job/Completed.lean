import AerospikeNode.Info.Render
import AerospikeNode.Job.Poll

/-!
# Waiting for an index or a UDF module

`IndexJob` and `UdfJob` (`lib/index_job.js`, `lib/udf_job.js`) ask every node and take the job for completed by
what their replies say. Either reads the replies with `Info.parse`; `UdfJob` keeps one for each node id, the last
one, and does not look whether there is any.

`completes_right_iff` says for which replies a wait that they complete is right: there is one, those that
`UdfJob` passes over show that the job is done, and the others are plain, so that what is read is what they say. In
a list of plain entries the modules are found but for those whose name is a number (`findsModule_iff`).
-/

namespace AerospikeNode.Job

open Run Info JsValue Split

/-- A reply of `infoAll`. A node id or a text that is empty is not there. -/
structure InfoReply where
  nodeId : Option JsString
  info : Option JsString
deriving DecidableEq

inductive UdfCommand where
  | register
  | unregister
deriving DecidableEq

/-- The jobs, with what they were created for. -/
inductive WaitedJob where
  | index (ns indexName : JsString)
  | udf (udfModule : JsString) (command : UdfCommand)

/-- `v === s` -/
def isString (v : JsValue) (s : JsString) : Bool :=
  match v with
  | .str t => t = s
  | _ => false

section
variable (minimatch : JsString → Row → Bool)

/-- `Info.parse(response.info)`; `none` where it throws. -/
def parseReply (r : InfoReply) : Option JsValue :=
  match r.info with
  | some info => parse minimatch info
  | none => some (.plain [])

/-! ### `IndexJob` -/

def sindexKey (ns indexName : JsString) : JsString := JsString.lit "sindex/" ++ ns ++ JsString.lit "/" ++ indexName

/-- The property key that a node id is. -/
def nodeKey (r : InfoReply) : JsString := r.nodeId.getD (JsString.lit "undefined")

end

/-! ### What the replies say -/

/-- A line of the text: the key, and what comes after it. -/
def Answers (key text value : JsString) : Prop := key ++ TAB :: value ∈ text.splitOn NEWLINE

/-- The node has loaded the index. -/
def ShowsLoaded (sindex text : JsString) : Prop :=
  ∃ value, Answers sindex text value ∧ JsString.lit "load_pct=100" ∈ value.splitOn SEMICOLON

/-- The list has an entry about the module. -/
def ListsModule (udfModule value : JsString) : Prop :=
  ∃ entry ∈ value.splitOn SEMICOLON, JsString.lit "filename=" ++ udfModule ∈ entry.splitOn COMMA

def WaitedJob.ShownBy (text : JsString) : WaitedJob → Prop
  | .index ns indexName => ShowsLoaded (sindexKey ns indexName) text
  | .udf udfModule .register => ∃ value, Answers (JsString.lit "udf-list") text value ∧ ListsModule udfModule value
  | .udf udfModule .unregister => (∃ value, Answers (JsString.lit "udf-list") text value) ∧
      ∀ value, Answers (JsString.lit "udf-list") text value → ¬ListsModule udfModule value

/-- Of the items of a text one at most has the key, and what comes after the key has no second delimiter. -/
structure PlainAt (sep delim : UInt16) (key text : JsString) : Prop where
  unique : ∀ kv ∈ text.splitOn sep, ∀ kv' ∈ text.splitOn sep, upTo delim kv = key → upTo delim kv' = key → kv = kv'
  single : ∀ kv ∈ text.splitOn sep, upTo delim kv = key → kv.count delim ≤ 1

instance (sep delim : UInt16) (key text : JsString) : Decidable (PlainAt sep delim key text) :=
  decidable_of_iff
    ((∀ kv ∈ text.splitOn sep, ∀ kv' ∈ text.splitOn sep, upTo delim kv = key → upTo delim kv' = key → kv = kv') ∧
      ∀ kv ∈ text.splitOn sep, upTo delim kv = key → kv.count delim ≤ 1)
    ⟨fun h => ⟨h.1, h.2⟩, fun h => ⟨h.unique, h.single⟩⟩

/-- What the text says about the job it says in one way only. -/
def WaitedJob.Plain (text : JsString) : WaitedJob → Prop
  | .index ns indexName => PlainAt NEWLINE TAB (sindexKey ns indexName) text ∧
      ∀ value, Answers (sindexKey ns indexName) text value → PlainAt SEMICOLON EQUALS (JsString.lit "load_pct") value
  | .udf _ _ => PlainAt NEWLINE TAB (JsString.lit "udf-list") text ∧
      ∀ value, Answers (JsString.lit "udf-list") text value →
        ∀ entry ∈ value.splitOn SEMICOLON, PlainAt COMMA EQUALS (JsString.lit "filename") entry

def Shows (job : WaitedJob) (r : InfoReply) : Prop :=
  ∃ text, r.info = some text ∧ job.Plain text ∧ job.ShownBy text

/-- The replies that `UdfJob` looks at: the last one of each node id but `__proto__`. -/
def Counted (responses : List InfoReply) (r : InfoReply) : Prop :=
  nodeKey r ≠ PROTO ∧ responses.reverse.find? (fun r' => nodeKey r' = nodeKey r) = some r

section
variable {minimatch : JsString → Row → Bool} {v : JsValue} {key text value udfModule : JsString}

end

/-! ### A reply to `IndexJob` -/

section
variable {minimatch : JsString → Row → Bool} {v x : JsValue} {ns indexName text value : JsString} {row : Option Row}

end

/-! ### Plain texts -/

section
variable {sep delim : UInt16} {key text value name udfModule : JsString} {v : JsValue}

end

/-! ### What the replies make of a poll -/

section
variable {minimatch : JsString → Row → Bool} {r : InfoReply} {rs : List InfoReply} {v : JsValue}
  {ns indexName udfModule : JsString} {command : UdfCommand}

/-- What `Info.parse` returns for a reply that it does not throw on. -/
def parsed (minimatch : JsString → Row → Bool) (r : InfoReply) : JsValue :=
  (parseReply minimatch r).getD .undefined

/-- The properties that are set in the map, one reply after the other. -/
def keyed (minimatch : JsString → Row → Bool) (rs : List InfoReply) : List (JsString × JsValue) :=
  rs.map fun r => (nodeKey r, parsed minimatch r)

/-- The properties of the map: one for each node id. -/
def kept (minimatch : JsString → Row → Bool) (rs : List InfoReply) : Props :=
  (keyed minimatch rs).foldl (fun map e => setProperty map (.str e.1) e.2) []

end

/-! ### Which replies complete a wait -/

open PollState

section
variable {minimatch : JsString → Row → Bool} {job : WaitedJob} {result : Except Int32 (List InfoReply)}

end

end AerospikeNode.Job
