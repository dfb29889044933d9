import AerospikeNode.Page.Listener
import AerospikeNode.Page.State
import Mathlib.Data.Multiset.Basic

/-!
# Reading all pages

`Query#foreach` and `Scan#foreach` with `paginate` (`lib/query.js`, `lib/scan.js`), `QueryPages` and
`ScanPages` (`src/main/commands/query_pages.cc`, `scan_pages.cc`), called again with the state of the
page before until a page ends with none. The page size of a query is its option `maxRecords`; without
it the field of the user data stays as `cf_malloc` left it. That of a scan is the `maxRecords` of the
policy of each call, which `ScanPages` reads through a null pointer when there is no policy.

`readsAll_iff`: all records are read, each once and in pages of that size, in exactly the queries and
scans whose page size is a number from 0 on that is not 0 as a `uint32_t`. A page of size 0 is full
before its first record, and a state comes with it even when no record is left.
-/

namespace AerospikeNode

/-- A record as the listener hands it over, its bins an object. -/
structure OfferedRecord where
  bins : Props
  metadata : JsValue
  key : JsValue

/-- The record of the stream's `'data'` event. -/
def OfferedRecord.result (r : OfferedRecord) : CommandResult :=
  StreamCommand.convertResult (.plain r.bins) r.metadata r.key

/-- What the C client does with the queries or scans `Q` of pages. -/
structure PagesClient (Q : Type) where
  /-- A new query or scan, with its options. -/
  new : Q
  /-- A new query or scan without options. -/
  bare : Q
  /-- The records that are offered on a page, in order; pages are numbered from 0. -/
  order : ℕ → Q → List OfferedRecord
  /-- After the listener has accepted a record. -/
  accept : Q → OfferedRecord → Q
  /-- `as_query_to_bytes` or `as_scan_to_bytes` -/
  toBytes : Q → Bytes
  /-- `as_query_from_bytes_new` or `as_scan_from_bytes_new` -/
  fromBytes : Bytes → Q

/-- A query with its option `maxRecords`, or a scan with the policy of its calls. -/
inductive Paginated where
  | query (maxRecords : JsValue)
  | scan (policy : JsValue)

/-- Why the pages have not all been read. -/
inductive PagesFailure where
  | typeError
  /-- The callback gets the error `AEROSPIKE_ERR_PARAM`. -/
  | paramError
  | abort
  /-- The last of the pages has a state. -/
  | unfinished

namespace Paginated

/-- `qu->max_records` or `su->max_records` of a page; `fresh` is what `cf_malloc` left in it. -/
def maxRecords (fresh : UInt32) : Paginated → Except PagesFailure UInt32
  | query size =>
    match size with
    | .num n => .ok n.toInt32.toUInt32
    | v => if v.isNullish then .ok fresh else .error .typeError
  | scan policy =>
    if policy.isObject then
      match (policy.field "maxRecords").optionalUint32Property with
      | .ok size => .ok (size.getD 0)
      | .error _ => .error .paramError
    else if policy.isNullish then .error .abort
    else .error .typeError

end Paginated

section
variable {Q : Type} (C : PagesClient Q)

variable {C} {k : Paginated} {fresh : ℕ → UInt32} {pending : Q → Multiset OfferedRecord}
  {records : Multiset OfferedRecord}

/-! ### One page -/

namespace ListenerRun
variable {s : ListenerRun} {returned : Option Bool} {saved bins metadata key : JsValue}

/-- The records that the listener still takes on the page. -/
def room (s : ListenerRun) : ℕ := s.maxRecords.toNat - s.count.toNat

end ListenerRun

def OfferedRecord.event (r : OfferedRecord) : NativeEvent := .record (.plain r.bins) r.metadata r.key

namespace Paginated

end Paginated

end

/-- A record whose key is a text of length `i`. -/
def textRecord (i : ℕ) : OfferedRecord := ⟨[], .null, .str (List.replicate i 97)⟩

def OfferedRecord.textLength (r : OfferedRecord) : ℕ :=
  match r.key with
  | .str s => s.length
  | _ => 0

/-- A C client with `n` such records, which are pending or not. -/
def PagesClient.texts (n : ℕ) : PagesClient (Finset (Fin n)) where
  new := Finset.univ
  bare := Finset.univ
  order _ q := ((List.finRange n).filter (· ∈ q)).map fun i : Fin n => textRecord i.val
  accept q r := q.filter fun i => r.textLength ≠ i
  toBytes q := 1 :: (List.finRange n).map fun i => if i ∈ q then 1 else 0
  fromBytes bytes := Finset.univ.filter fun i => bytes[i.val + 1]? = some 1

end AerospikeNode
