import Mathlib.Data.List.Induction
import AerospikeNode.Lib.Split
import AerospikeNode.Native.ToJs

/-!
# Metrics for the disable listener

`disable_listener` and the fields of `MetricsCommand` that it fills (`src/main/commands/enable_metrics.cc`),
the object that `cluster_to_jsobject` and `node_to_jsobject` (`src/main/util/conversions.cc`) make of them
for the listener, and what the destructor of the command frees. The listener is called later, when the
cluster may have other nodes; a call that reads memory nobody has written has no result.
-/

namespace AerospikeNode.Metrics

inductive LatencyType where
  | connection
  | write
  | read
  | batch
  | query

/-- The name and the counters of an `as_ns_metrics`. -/
structure Counters where
  ns : Bytes
  bytesIn : UInt64
  bytesOut : UInt64
  errorCount : UInt64
  timeoutCount : UInt64
  keyBusyCount : UInt64

/-- `as_ns_metrics`. Its histograms have the columns that the policy asked for. -/
structure NsMetrics extends Counters where
  columns : UInt8
  latency : LatencyType → List UInt64
  length_latency : ∀ t, (latency t).length = columns.toNat

structure Node where
  name : Bytes
  metrics : List NsMetrics

/-- An allocated copy of counters; `block` tells allocations apart. -/
structure CountersCopy where
  block : ℕ
  counters : Counters

/-- A `latency`, filled: its five arrays are allocated together. -/
structure Latency where
  block : ℕ
  buckets : LatencyType → List UInt32

/-- `MetricsCommand`. The array `ns_metrics` is as long as `metrics_size` says, and `latency_buckets` has
`nodes_size` slots. -/
structure MetricsCommand where
  nsMetrics : Option (List CountersCopy)
  latencyBuckets : List (Option Latency)
  latencyBucketsSet : Bool
  bucketMax : UInt8
  allocated : ℕ

/-! ### The snapshot -/

/-- One round of the inner loop of `disable_listener`. -/
def captureNs (i : ℕ) (cmd : MetricsCommand) (m : NsMetrics) : MetricsCommand where
  nsMetrics := cmd.nsMetrics.map (· ++ [⟨cmd.allocated, m.toCounters⟩])
  latencyBuckets := cmd.latencyBuckets.set i
    (some ⟨cmd.allocated + 1, fun t => (m.latency t).map UInt64.toUInt32⟩)
  latencyBucketsSet := true
  bucketMax := m.columns
  allocated := cmd.allocated + 2

/-- One round of the outer loop; the array of the node before is forgotten. -/
def captureNode (cmd : MetricsCommand) (n : Node × ℕ) : MetricsCommand :=
  n.1.metrics.foldl (captureNs n.2) { cmd with nsMetrics := some [] }

/-- The command before the loops, with so many slots. -/
def start (nodesSize : ℕ) : MetricsCommand := ⟨none, List.replicate nodesSize none, false, 0, 0⟩

/-- The loops of `disable_listener`. -/
def disableListener (nodes : List Node) : MetricsCommand := nodes.zipIdx.foldl captureNode (start nodes.length)

/-! ### The object -/

def UMAX_SAFE_INTEGER : ℕ := 2 ^ 53 - 1

theorem abs_lt_of_safe {x : UInt64} (h : x.toNat ≤ UMAX_SAFE_INTEGER) : |(x.toNat : ℤ)| < 2 ^ 53 := by
  rw [UMAX_SAFE_INTEGER] at h
  rw [abs_lt]
  omega

/-- A counter as a number, or else the BigInt of `big`, which is read as an `int64_t`. -/
def counterToJs (count big : UInt64) : JsValue :=
  if h : count.toNat ≤ UMAX_SAFE_INTEGER then .num (.ofInt count.toNat (abs_lt_of_safe h))
  else .bigint big.toInt64.toInt

def nsMetricsObject (buckets : LatencyType → List JsValue) (ns : Bytes)
    (bytesIn bytesOut errorCount timeoutCount keyBusyCount : JsValue) : JsValue :=
  .plain [(JsString.lit "connLatency", .array (buckets .connection)),
    (JsString.lit "writeLatency", .array (buckets .write)),
    (JsString.lit "readLatency", .array (buckets .read)),
    (JsString.lit "batchLatency", .array (buckets .batch)),
    (JsString.lit "queryLatency", .array (buckets .query)),
    (JsString.lit "ns", .ofCString ns),
    (JsString.lit "bytesIn", bytesIn),
    (JsString.lit "bytesOut", bytesOut),
    (JsString.lit "errorCount", errorCount),
    (JsString.lit "timeoutCount", timeoutCount),
    (JsString.lit "keyBusyCount", keyBusyCount)]

/-- A histogram of the snapshot. -/
def Latency.histogram (l : Latency) (bucketMax : UInt8) (t : LatencyType) : List JsValue :=
  ((l.buckets t).take bucketMax.toNat).map fun b => .num (.ofUInt32 b)

/-- Whether the arrays have as many elements as are read. -/
def Latency.holds (l : Latency) (bucketMax : UInt8) : Bool :=
  [LatencyType.connection, .write, .read, .batch, .query].all fun t => bucketMax.toNat ≤ (l.buckets t).length

/-- One round of the loop in `node_to_jsobject`: the counters are `**ns_metrics`. -/
def nsToJsobject (cmd : MetricsCommand) (latency : Option Latency) : Option JsValue :=
  (cmd.nsMetrics.bind List.head?).bind fun c =>
    latency.bind fun l =>
      if l.holds cmd.bucketMax then
        some (nsMetricsObject (l.histogram cmd.bucketMax) c.counters.ns
          (counterToJs c.counters.bytesIn c.counters.bytesIn) (counterToJs c.counters.bytesOut c.counters.bytesOut)
          (counterToJs c.counters.errorCount c.counters.errorCount)
          (counterToJs c.counters.timeoutCount c.counters.errorCount)
          (counterToJs c.counters.keyBusyCount c.counters.errorCount))
      else none

def nodeObject (name : Bytes) (metrics : List JsValue) : JsValue :=
  .plain [(JsString.lit "name", .ofCString name), (JsString.lit "metrics", .array metrics)]

/-- `node_to_jsobject`, with the name and the `metrics`. -/
def nodeToJsobject (cmd : MetricsCommand) (latency : Option Latency) (node : Node) : Option JsValue :=
  (node.metrics.mapM fun _ => nsToJsobject cmd latency).map (nodeObject node.name)

/-- The `nodes` in `cluster_to_jsobject`. -/
def clusterToJsobject (cmd : MetricsCommand) (nodes : List Node) : Option (List JsValue) :=
  nodes.zipIdx.mapM fun n => nodeToJsobject cmd cmd.latencyBuckets[n.2]?.join n.1

/-- The allocations that `~MetricsCommand` frees; `none` is a pointer that was not set. -/
def MetricsCommand.freed (cmd : MetricsCommand) : List (Option ℕ) :=
  (if cmd.latencyBucketsSet then cmd.latencyBuckets.map fun slot => slot.map Latency.block else []) ++
    (cmd.nsMetrics.getD []).map fun c => some c.block

/-! ### What is claimed -/

/-- A count as the number or BigInt that it is. -/
def uint64ToJs (x : UInt64) : JsValue :=
  if h : x.toNat ≤ UMAX_SAFE_INTEGER then .num (.ofInt x.toNat (abs_lt_of_safe h)) else .bigint x.toNat

/-- The object with the namespace's own counters and histograms. -/
def NsMetrics.toJsobject (m : NsMetrics) : JsValue :=
  nsMetricsObject (fun t => (m.latency t).map uint64ToJs) m.ns (uint64ToJs m.bytesIn) (uint64ToJs m.bytesOut)
    (uint64ToJs m.errorCount) (uint64ToJs m.timeoutCount) (uint64ToJs m.keyBusyCount)

def Node.toJsobject (node : Node) : JsValue := nodeObject node.name (node.metrics.map NsMetrics.toJsobject)

/-- Every namespace of every node is reported as it is, to a listener called when `later` are the nodes. -/
def Reported (nodes later : List Node) : Prop :=
  clusterToJsobject (disableListener nodes) later = some (nodes.map Node.toJsobject)

/-- Only what was allocated is freed, and once. -/
def FreedOnce (nodes : List Node) : Prop :=
  (∀ p ∈ (disableListener nodes).freed, p.isSome = true) ∧ (disableListener nodes).freed.Nodup

/-! ### When it holds -/

/-- `own` is shown where a counter and its substitute for big values are converted. -/
def Shows (count big own : UInt64) : Prop :=
  if count.toNat ≤ UMAX_SAFE_INTEGER then own = count
  else own = big ∧ UMAX_SAFE_INTEGER < own.toNat ∧ own.toNat < 2 ^ 63

/-- The counters of `f` show those of `m`. -/
structure Counters.Show (f m : Counters) : Prop where
  ns : JsString.decode f.ns = JsString.decode m.ns
  bytesIn : Shows f.bytesIn f.bytesIn m.bytesIn
  bytesOut : Shows f.bytesOut f.bytesOut m.bytesOut
  errorCount : Shows f.errorCount f.errorCount m.errorCount
  timeoutCount : Shows f.timeoutCount f.errorCount m.timeoutCount
  keyBusyCount : Shows f.keyBusyCount f.errorCount m.keyBusyCount

/-- The last of the namespaces of all nodes. -/
def lastNamespace (nodes : List Node) : Option NsMetrics := (nodes.flatMap Node.metrics).getLast?

/-- The first namespace of the last node. -/
def shownNamespace (nodes : List Node) : Option NsMetrics := nodes.getLast?.bind fun node => node.metrics.head?

/-- The clusters of which everything is reported. -/
structure Uniform (nodes : List Node) : Prop where
  counters : ∀ node ∈ nodes, ∀ m ∈ node.metrics, ∃ f, shownNamespace nodes = some f ∧ f.Show m.toCounters
  latency : ∀ node ∈ nodes, ∀ m ∈ node.metrics, ∀ l, node.metrics.getLast? = some l → l.latency = m.latency
  columns : ∀ node ∈ nodes, ∀ m ∈ node.metrics, ∀ l, lastNamespace nodes = some l → l.columns = m.columns
  fits : ∀ node ∈ nodes, ∀ m ∈ node.metrics, ∀ t, ∀ b ∈ m.latency t, b.toNat < 2 ^ 32

/-- A node as it was, or one with its name and as many namespaces. -/
def SameNode (node node' : Node) : Prop :=
  JsString.decode node.name = JsString.decode node'.name ∧ node.metrics.length = node'.metrics.length

/-- All nodes have namespaces, or none has. -/
def AllFilled (nodes : List Node) : Prop :=
  (∃ node ∈ nodes, node.metrics ≠ []) → ∀ node ∈ nodes, node.metrics ≠ []

/-! ### What the loops leave -/

/-- The histograms in a slot. -/
def MetricsCommand.slot (cmd : MetricsCommand) (i : ℕ) : Option (LatencyType → List UInt32) :=
  cmd.latencyBuckets[i]?.join.map Latency.buckets

/-- The histograms of a namespace, as they are copied. -/
def NsMetrics.narrowed (m : NsMetrics) (t : LatencyType) : List UInt32 := (m.latency t).map UInt64.toUInt32

/-- What the inner loop makes of a command. -/
structure HoldsNode (before : MetricsCommand) (i : ℕ) (ms : List NsMetrics) (cmd : MetricsCommand) : Prop where
  counters : cmd.nsMetrics.map (List.map CountersCopy.counters) =
    before.nsMetrics.map fun cs => cs.map CountersCopy.counters ++ ms.map NsMetrics.toCounters
  length : cmd.latencyBuckets.length = before.latencyBuckets.length
  other : ∀ j, i ≠ j → cmd.slot j = before.slot j
  self : i < before.latencyBuckets.length → cmd.slot i = (ms.getLast?.map NsMetrics.narrowed).or (before.slot i)
  bucketMax : cmd.bucketMax = (ms.getLast?.map NsMetrics.columns).getD before.bucketMax
  set : cmd.latencyBucketsSet = (before.latencyBucketsSet || !ms.isEmpty)

theorem slot_captureNs_of_ne {cmd : MetricsCommand} {i j : ℕ} (m : NsMetrics) (h : i ≠ j) :
    (captureNs i cmd m).slot j = cmd.slot j := by
  show (cmd.latencyBuckets.set i _)[j]?.join.map _ = _
  rw [List.getElem?_set_ne h]
  rfl

theorem slot_captureNs_self {cmd : MetricsCommand} {i : ℕ} (m : NsMetrics) (h : i < cmd.latencyBuckets.length) :
    (captureNs i cmd m).slot i = some m.narrowed := by
  show (cmd.latencyBuckets.set i _)[i]?.join.map _ = _
  rw [List.getElem?_set_self h]
  rfl

theorem holdsNode (cmd : MetricsCommand) (i : ℕ) (ms : List NsMetrics) :
    HoldsNode cmd i ms (ms.foldl (captureNs i) cmd) := by
  induction ms using List.reverseRecOn with
  | nil =>
    refine ⟨?_, rfl, fun _ _ => rfl, fun _ => rfl, rfl, ?_⟩
    · simp
    · simp
  | append_singleton ms m ih =>
    rw [List.foldl_append, List.foldl_cons, List.foldl_nil]
    generalize ms.foldl (captureNs i) cmd = after at ih
    refine ⟨?_, ?_, ?_, ?_, ?_, ?_⟩
    · have hcounters := congrArg (Option.map (· ++ [m.toCounters])) ih.counters
      simpa [captureNs, Option.map_map, Function.comp_def] using hcounters
    · show (after.latencyBuckets.set i _).length = _
      rw [List.length_set, ih.length]
    · intro j hj
      rw [slot_captureNs_of_ne m hj, ih.other j hj]
    · intro hi
      rw [slot_captureNs_self m (ih.length.symm ▸ hi), List.getLast?_concat]
      rfl
    · rw [List.getLast?_concat]
      rfl
    · simp [captureNs]

/-- What the outer loop makes of so many slots. -/
structure HoldsNodes (nodesSize : ℕ) (nodes : List Node) (cmd : MetricsCommand) : Prop where
  counters : cmd.nsMetrics.map (List.map CountersCopy.counters) =
    nodes.getLast?.map fun node => node.metrics.map NsMetrics.toCounters
  length : cmd.latencyBuckets.length = nodesSize
  slot : ∀ i, cmd.slot i = (nodes[i]?.bind fun node => node.metrics.getLast?).map NsMetrics.narrowed
  bucketMax : cmd.bucketMax = ((lastNamespace nodes).map NsMetrics.columns).getD 0
  set : cmd.latencyBucketsSet = nodes.any fun node => !node.metrics.isEmpty

theorem slot_start (nodesSize i : ℕ) : (start nodesSize).slot i = none := by
  show (List.replicate nodesSize none)[i]?.join.map _ = _
  rw [List.getElem?_replicate]
  split_ifs <;> rfl

theorem holdsNodes {nodesSize : ℕ} (nodes : List Node) (h : nodes.length ≤ nodesSize) :
    HoldsNodes nodesSize nodes (nodes.zipIdx.foldl captureNode (start nodesSize)) := by
  induction nodes using List.reverseRecOn with
  | nil => exact ⟨rfl, List.length_replicate, fun i => slot_start nodesSize i, rfl, rfl⟩
  | append_singleton nodes node ih =>
    rw [List.length_append, List.length_singleton] at h
    have ih := ih (Nat.le_of_succ_le h)
    rw [List.zipIdx_append, List.foldl_append]
    generalize nodes.zipIdx.foldl captureNode (start nodesSize) = before at ih
    have hnode := holdsNode { before with nsMetrics := some [] } nodes.length node.metrics
    show HoldsNodes nodesSize _ (captureNode before (node, 0 + nodes.length))
    rw [Nat.zero_add]
    change HoldsNode _ _ _ (captureNode before (node, nodes.length)) at hnode
    generalize captureNode before (node, nodes.length) = after at hnode
    have hlength : nodes.length < before.latencyBuckets.length := by
      rw [ih.length]
      omega
    refine ⟨?_, ?_, ?_, ?_, ?_⟩
    · rw [hnode.counters, List.getLast?_concat]
      rfl
    · rw [hnode.length]
      exact ih.length
    · intro i
      rcases eq_or_ne nodes.length i with rfl | hne
      · have hbefore := ih.slot nodes.length
        rw [List.getElem?_eq_none le_rfl] at hbefore
        rw [hnode.self hlength, List.getElem?_concat_length]
        show Option.or _ (before.slot _) = _
        rw [hbefore]
        exact Option.or_none
      · rw [hnode.other i hne]
        show before.slot i = _
        rw [ih.slot i]
        rcases Nat.lt_or_ge i nodes.length with hlt | hge
        · rw [List.getElem?_append_left hlt]
        · rw [List.getElem?_eq_none hge, List.getElem?_eq_none]
          rw [List.length_append, List.length_singleton]
          omega
    · rw [hnode.bucketMax, lastNamespace, List.flatMap_append, List.getLast?_append, List.flatMap_singleton]
      show _ = Option.getD (Option.map _ (Option.or _ (lastNamespace nodes))) 0
      cases node.metrics.getLast? with
      | none => exact ih.bucketMax
      | some l => rfl
    · rw [hnode.set, List.any_append, ← ih.set, List.any_cons, List.any_nil, Bool.or_false]

/-! ### What is shown of it -/

theorem num_ofInt_inj {i j : ℤ} (hi : |i| < 2 ^ 53) (hj : |j| < 2 ^ 53) :
    JsValue.num (.ofInt i hi) = .num (.ofInt j hj) ↔ i = j := by
  constructor
  · intro h
    have hcast : (i : ℚ) = j := (JsNumber.fin.inj (JsValue.num.inj h))
    exact_mod_cast hcast
  · rintro rfl
    rfl

theorem uint64ToJs_injective : Function.Injective uint64ToJs := by
  intro x y h
  unfold uint64ToJs at h
  split_ifs at h
  · rw [num_ofInt_inj] at h
    exact UInt64.toNat_inj.1 (by omega)
  · have hbig := JsValue.bigint.inj h
    exact UInt64.toNat_inj.1 (by omega)

theorem toInt_toInt64 (x : UInt64) :
    x.toInt64.toInt = if 2 * x.toNat < 2 ^ 64 then (x.toNat : ℤ) else x.toNat - (2 ^ 64 : ℕ) :=
  x.toBitVec.toInt_eq_toNat_cond

theorem counterToJs_eq_iff {count big own : UInt64} :
    counterToJs count big = uint64ToJs own ↔ Shows count big own := by
  unfold counterToJs uint64ToJs Shows
  split_ifs with hcount hown hown
  · rw [num_ofInt_inj, ← UInt64.toNat_inj]
    omega
  · constructor
    · intro h
      cases h
    · rintro rfl
      exact absurd hcount hown
  · constructor
    · intro h
      cases h
    · intro h
      omega
  · have hbig := big.toNat_lt
    have hlt := own.toNat_lt
    rw [JsValue.bigint.injEq, toInt_toInt64, ← UInt64.toNat_inj]
    split_ifs with hhalf
    · omega
    · omega

theorem bucket_eq_iff {b own : UInt64} :
    JsValue.num (.ofUInt32 b.toUInt32) = uint64ToJs own ↔ b.toUInt32.toNat = own.toNat := by
  have hb := b.toUInt32.toNat_lt
  unfold uint64ToJs
  split_ifs with hown
  · rw [JsNumber.ofUInt32, num_ofInt_inj]
    omega
  · rw [UMAX_SAFE_INTEGER] at hown
    constructor
    · intro h
      cases h
    · intro h
      omega

theorem bucket_self_iff {b : UInt64} :
    JsValue.num (.ofUInt32 b.toUInt32) = uint64ToJs b ↔ b.toNat < 2 ^ 32 := by
  rw [bucket_eq_iff, UInt64.toNat_toUInt32]
  omega

/-- The histograms of `m` are what is drawn of some. -/
def Drawn (buckets : LatencyType → List UInt32) (bucketMax : UInt8) (m : NsMetrics) : Prop :=
  ∀ t, bucketMax.toNat ≤ (buckets t).length ∧
    ((buckets t).take bucketMax.toNat).map (fun b => JsValue.num (.ofUInt32 b)) = (m.latency t).map uint64ToJs

theorem length_narrowed (m : NsMetrics) (t : LatencyType) : (m.narrowed t).length = m.columns.toNat := by
  rw [NsMetrics.narrowed, List.length_map, m.length_latency]

theorem drawn_self_iff {m : NsMetrics} {bucketMax : UInt8} :
    Drawn m.narrowed bucketMax m ↔ bucketMax = m.columns ∧ ∀ t, ∀ b ∈ m.latency t, b.toNat < 2 ^ 32 := by
  have hwhole : ∀ t, ((m.narrowed t).take m.columns.toNat).map (fun b => JsValue.num (.ofUInt32 b)) =
      (m.latency t).map uint64ToJs ↔ ∀ b ∈ m.latency t, b.toNat < 2 ^ 32 := by
    intro t
    rw [List.take_of_length_le (length_narrowed m t).le, NsMetrics.narrowed, List.map_map, List.map_inj_left]
    exact forall₂_congr fun b _ => bucket_self_iff
  constructor
  · intro h
    have hcolumns : bucketMax = m.columns := by
      obtain ⟨hle, heq⟩ := h .connection
      have hlength := congrArg List.length heq
      rw [length_narrowed] at hle
      rw [List.length_map, List.length_take, List.length_map, length_narrowed, m.length_latency] at hlength
      exact UInt8.toNat_inj.1 (by omega)
    subst hcolumns
    exact ⟨rfl, fun t => (hwhole t).1 (h t).2⟩
  · rintro ⟨rfl, hfits⟩ t
    exact ⟨(length_narrowed m t).ge, (hwhole t).2 (hfits t)⟩

/-- Where one namespace is drawn as itself, another is drawn if it has the same histograms. -/
theorem drawn_iff_of_self {l m : NsMetrics} {bucketMax : UInt8} (h : Drawn l.narrowed bucketMax l) :
    Drawn l.narrowed bucketMax m ↔ l.latency = m.latency := by
  constructor
  · intro hm
    funext t
    exact uint64ToJs_injective.list_map ((h t).2.symm.trans (hm t).2)
  · intro heq t
    rw [← heq]
    exact h t

theorem columns_eq {l m : NsMetrics} (h : l.latency = m.latency) : l.columns = m.columns := by
  have hl := l.length_latency .connection
  rw [h, m.length_latency] at hl
  exact UInt8.toNat_inj.1 hl.symm

/-- The namespaces of a node, drawn from the last of them. -/
theorem drawn_node_iff {ms : List NsMetrics} {l : NsMetrics} {bucketMax : UInt8} (hl : l ∈ ms) :
    (∀ m ∈ ms, Drawn l.narrowed bucketMax m) ↔
      ∀ m ∈ ms, l.latency = m.latency ∧ bucketMax = m.columns ∧ ∀ t, ∀ b ∈ m.latency t, b.toNat < 2 ^ 32 := by
  constructor
  · intro h m hm
    obtain ⟨hcolumns, hfits⟩ := drawn_self_iff.1 (h l hl)
    have heq := (drawn_iff_of_self (h l hl)).1 (h m hm)
    refine ⟨heq, hcolumns.trans (columns_eq heq), ?_⟩
    rw [← heq]
    exact hfits
  · intro h m hm
    have hself : Drawn l.narrowed bucketMax l := drawn_self_iff.2 (h l hl).2
    exact (drawn_iff_of_self hself).2 (h m hm).1

theorem nsMetricsObject_inj {b b' : LatencyType → List JsValue} {ns ns' : Bytes}
    {bytesIn bytesIn' bytesOut bytesOut' errors errors' timeouts timeouts' busy busy' : JsValue} :
    nsMetricsObject b ns bytesIn bytesOut errors timeouts busy =
        nsMetricsObject b' ns' bytesIn' bytesOut' errors' timeouts' busy' ↔
      (∀ t, b t = b' t) ∧ JsString.decode ns = JsString.decode ns' ∧ bytesIn = bytesIn' ∧ bytesOut = bytesOut' ∧
        errors = errors' ∧ timeouts = timeouts' ∧ busy = busy' := by
  have hbuckets : (∀ t, b t = b' t) ↔ b .connection = b' .connection ∧ b .write = b' .write ∧
      b .read = b' .read ∧ b .batch = b' .batch ∧ b .query = b' .query := by
    constructor
    · exact fun h => ⟨h _, h _, h _, h _, h _⟩
    · rintro ⟨h1, h2, h3, h4, h5⟩ t
      cases t with
      | connection => exact h1
      | write => exact h2
      | read => exact h3
      | batch => exact h4
      | query => exact h5
  rw [hbuckets]
  simp only [nsMetricsObject, JsValue.ofCString, JsValue.plain, JsValue.obj.injEq, List.cons.injEq,
    Prod.mk.injEq, JsValue.array.injEq, JsValue.str.injEq, true_and, and_true, and_assoc]

theorem Latency.holds_iff {l : Latency} {bucketMax : UInt8} :
    l.holds bucketMax = true ↔ ∀ t, bucketMax.toNat ≤ (l.buckets t).length := by
  simp only [Latency.holds, List.all_cons, List.all_nil, Bool.and_true, Bool.and_eq_true, decide_eq_true_eq]
  constructor
  · rintro ⟨h1, h2, h3, h4, h5⟩ t
    cases t with
    | connection => exact h1
    | write => exact h2
    | read => exact h3
    | batch => exact h4
    | query => exact h5
  · exact fun h => ⟨h _, h _, h _, h _, h _⟩

theorem show_iff {f m : Counters} :
    f.Show m ↔ JsString.decode f.ns = JsString.decode m.ns ∧
      counterToJs f.bytesIn f.bytesIn = uint64ToJs m.bytesIn ∧
      counterToJs f.bytesOut f.bytesOut = uint64ToJs m.bytesOut ∧
      counterToJs f.errorCount f.errorCount = uint64ToJs m.errorCount ∧
      counterToJs f.timeoutCount f.errorCount = uint64ToJs m.timeoutCount ∧
      counterToJs f.keyBusyCount f.errorCount = uint64ToJs m.keyBusyCount := by
  simp only [counterToJs_eq_iff]
  constructor
  · rintro ⟨hns, hin, hout, herror, htimeout, hbusy⟩
    exact ⟨hns, hin, hout, herror, htimeout, hbusy⟩
  · rintro ⟨hns, hin, hout, herror, htimeout, hbusy⟩
    exact ⟨hns, hin, hout, herror, htimeout, hbusy⟩

theorem nsToJsobject_eq_iff {cmd : MetricsCommand} {latency : Option Latency} {m : NsMetrics} :
    nsToJsobject cmd latency = some m.toJsobject ↔
      (∃ f, (cmd.nsMetrics.map (List.map CountersCopy.counters)).bind List.head? = some f ∧ f.Show m.toCounters) ∧
        ∃ buckets, latency.map Latency.buckets = some buckets ∧ Drawn buckets cmd.bucketMax m := by
  have hcopies : (cmd.nsMetrics.map (List.map CountersCopy.counters)).bind List.head? =
      (cmd.nsMetrics.bind List.head?).map CountersCopy.counters := by
    cases cmd.nsMetrics with
    | none => rfl
    | some cs => exact List.head?_map ..
  rw [hcopies]
  unfold nsToJsobject
  cases cmd.nsMetrics.bind List.head? with
  | none => exact ⟨nofun, fun ⟨⟨_, h, _⟩, _⟩ => nomatch h⟩
  | some c =>
    cases latency with
    | none => exact ⟨nofun, fun ⟨_, _, h, _⟩ => nomatch h⟩
    | some l =>
      simp only [Option.bind_some, Option.map_some, Option.some.injEq, exists_eq_left', show_iff]
      constructor
      · intro h
        split_ifs at h with hholds
        obtain ⟨hbuckets, hcounters⟩ := nsMetricsObject_inj.1 (Option.some.inj h)
        exact ⟨hcounters, fun t => ⟨Latency.holds_iff.1 hholds t, hbuckets t⟩⟩
      · rintro ⟨hcounters, hdrawn⟩
        rw [if_pos (Latency.holds_iff.2 fun t => (hdrawn t).1)]
        exact congrArg some (nsMetricsObject_inj.2 ⟨fun t => (hdrawn t).2, hcounters⟩)

theorem nodeObject_inj {name name' : Bytes} {metrics metrics' : List JsValue} :
    nodeObject name metrics = nodeObject name' metrics' ↔
      JsString.decode name = JsString.decode name' ∧ metrics = metrics' := by
  simp only [nodeObject, JsValue.ofCString, JsValue.plain, JsValue.obj.injEq, List.cons.injEq,
    Prod.mk.injEq, JsValue.array.injEq, JsValue.str.injEq, true_and, and_true]

theorem nodeToJsobject_eq_iff {cmd : MetricsCommand} {latency : Option Latency} {node node' : Node} :
    nodeToJsobject cmd latency node' = some node.toJsobject ↔
      SameNode node node' ∧ ∀ m ∈ node.metrics, nsToJsobject cmd latency = some m.toJsobject := by
  have hmetrics : (node'.metrics.mapM fun _ => nsToJsobject cmd latency) =
      some (node.metrics.map NsMetrics.toJsobject) ↔ node'.metrics.length = node.metrics.length ∧
        ∀ m ∈ node.metrics, nsToJsobject cmd latency = some m.toJsobject := by
    rw [List.mapM_eq_some_iff, List.forall₂_map_right_iff]
    exact List.forall₂_const_left
  rw [nodeToJsobject, Option.map_eq_some_iff, SameNode]
  constructor
  · rintro ⟨metrics, h, heq⟩
    obtain ⟨hname, rfl⟩ := nodeObject_inj.1 heq
    obtain ⟨hlength, hall⟩ := hmetrics.1 h
    exact ⟨⟨hname.symm, hlength.symm⟩, hall⟩
  · rintro ⟨⟨hname, hlength⟩, hall⟩
    exact ⟨_, hmetrics.2 ⟨hlength.symm, hall⟩, nodeObject_inj.2 ⟨hname.symm, rfl⟩⟩

theorem clusterToJsobject_eq_iff {cmd : MetricsCommand} {nodes later : List Node} :
    clusterToJsobject cmd later = some (nodes.map Node.toJsobject) ↔
      List.Forall₂ SameNode nodes later ∧ ∀ (i : ℕ) (node : Node), nodes[i]? = some node →
        ∀ m ∈ node.metrics, nsToJsobject cmd cmd.latencyBuckets[i]?.join = some m.toJsobject := by
  rw [clusterToJsobject, List.mapM_eq_some_iff, List.forall₂_map_right_iff, List.forall₂_iff_get,
    List.forall₂_iff_get]
  simp only [nodeToJsobject_eq_iff, List.length_zipIdx, List.get_eq_getElem, List.getElem_zipIdx, Nat.zero_add]
  constructor
  · rintro ⟨hlength, h⟩
    refine ⟨⟨hlength.symm, fun i hi hi' => (h i hi' hi).1⟩, ?_⟩
    intro i node hnode
    obtain ⟨hi, rfl⟩ := List.getElem?_eq_some_iff.1 hnode
    exact (h i (hi.trans_eq hlength.symm) hi).2
  · rintro ⟨⟨hlength, hsame⟩, h⟩
    exact ⟨hlength.symm, fun i hi' hi => ⟨hsame i hi hi', h i nodes[i] (List.getElem?_eq_getElem hi)⟩⟩

theorem lastNamespace_isSome {nodes : List Node} {node : Node} {m : NsMetrics} (hnode : node ∈ nodes)
    (hm : m ∈ node.metrics) : ∃ l, lastNamespace nodes = some l := by
  have hmem : m ∈ nodes.flatMap Node.metrics := List.mem_flatMap.2 ⟨node, hnode, hm⟩
  exact Option.isSome_iff_exists.1 (List.getLast?_isSome.2 (List.ne_nil_of_mem hmem))

/-- The part of `Uniform` that speaks of one node. -/
def NodeShown (nodes : List Node) (node : Node) : Prop :=
  (∀ m ∈ node.metrics, ∃ f, shownNamespace nodes = some f ∧ f.Show m.toCounters) ∧
    ∀ l, node.metrics.getLast? = some l → ∀ last, lastNamespace nodes = some last →
      ∀ m ∈ node.metrics, l.latency = m.latency ∧ last.columns = m.columns ∧
        ∀ t, ∀ b ∈ m.latency t, b.toNat < 2 ^ 32

theorem nodeShown_iff {nodes : List Node} {cmd : MetricsCommand} {N i : ℕ} {node : Node}
    (hheld : HoldsNodes N nodes cmd) (hi : nodes[i]? = some node) :
    (∀ m ∈ node.metrics, nsToJsobject cmd cmd.latencyBuckets[i]?.join = some m.toJsobject) ↔
      NodeShown nodes node := by
  have hfirst : (cmd.nsMetrics.map (List.map CountersCopy.counters)).bind List.head? =
      (shownNamespace nodes).map NsMetrics.toCounters := by
    rw [hheld.counters, shownNamespace]
    cases nodes.getLast? with
    | none => rfl
    | some node => exact List.head?_map ..
  have hslot := hheld.slot i
  rw [hi, Option.bind_some, MetricsCommand.slot] at hslot
  unfold NodeShown
  simp only [nsToJsobject_eq_iff, hfirst, hslot]
  rcases hl : node.metrics.getLast? with _ | l
  · rw [List.getLast?_eq_none_iff.1 hl]
    exact ⟨fun _ => ⟨nofun, nofun⟩, fun _ => nofun⟩
  · have hmem : l ∈ node.metrics := List.mem_of_getLast? hl
    obtain ⟨last, hlast⟩ := lastNamespace_isSome (List.mem_of_getElem? hi) hmem
    have hmax : cmd.bucketMax = last.columns := by
      rw [hheld.bucketMax, hlast]
      rfl
    simp only [hmax, hlast, Option.map_some, Option.some.injEq, exists_eq_left', forall_eq',
      Option.map_eq_some_iff, exists_exists_and_eq_and]
    rw [forall₂_and, drawn_node_iff hmem]

theorem uniform_iff {nodes : List Node} : Uniform nodes ↔ ∀ node ∈ nodes, NodeShown nodes node := by
  constructor
  · intro h node hnode
    refine ⟨h.counters node hnode, ?_⟩
    intro l hl last hlast m hm
    exact ⟨h.latency node hnode m hm l hl, h.columns node hnode m hm last hlast, h.fits node hnode m hm⟩
  · intro h
    refine ⟨fun node hnode => (h node hnode).1, ?_, ?_, ?_⟩
    · intro node hnode m hm l hl
      obtain ⟨last, hlast⟩ := lastNamespace_isSome hnode hm
      exact ((h node hnode).2 l hl last hlast m hm).1
    · intro node hnode m hm last hlast
      obtain ⟨l, hl⟩ := Option.isSome_iff_exists.1 (List.getLast?_isSome.2 (List.ne_nil_of_mem hm))
      exact ((h node hnode).2 l hl last hlast m hm).2.1
    · intro node hnode m hm
      obtain ⟨last, hlast⟩ := lastNamespace_isSome hnode hm
      obtain ⟨l, hl⟩ := Option.isSome_iff_exists.1 (List.getLast?_isSome.2 (List.ne_nil_of_mem hm))
      exact ((h node hnode).2 l hl last hlast m hm).2.2

theorem reported_iff {nodes later : List Node} :
    Reported nodes later ↔ List.Forall₂ SameNode nodes later ∧ Uniform nodes := by
  have hheld : HoldsNodes nodes.length nodes (disableListener nodes) := holdsNodes nodes le_rfl
  rw [Reported, clusterToJsobject_eq_iff, uniform_iff]
  refine and_congr_right fun _ => ?_
  constructor
  · intro h node hnode
    obtain ⟨i, hi⟩ := List.mem_iff_getElem?.1 hnode
    exact (nodeShown_iff hheld hi).1 (h i node hi)
  · intro h i node hi
    exact (nodeShown_iff hheld hi).2 (h node (List.mem_of_getElem? hi))

/-! ### What is freed -/

/-- The allocations of a command: copies of counters have the even blocks, histograms the odd ones. -/
structure MetricsCommand.Apart (cmd : MetricsCommand) : Prop where
  even : cmd.allocated % 2 = 0
  copies : ∀ c ∈ cmd.nsMetrics.getD [], c.block < cmd.allocated ∧ c.block % 2 = 0
  copies_nodup : ((cmd.nsMetrics.getD []).map CountersCopy.block).Nodup
  slots : ∀ (i : ℕ) (l : Latency), cmd.latencyBuckets[i]? = some (some l) → l.block < cmd.allocated ∧ l.block % 2 = 1
  slots_inj : ∀ (i j : ℕ) (l l' : Latency), cmd.latencyBuckets[i]? = some (some l) →
    cmd.latencyBuckets[j]? = some (some l') → l.block = l'.block → i = j

theorem MetricsCommand.Apart.captureNs {cmd : MetricsCommand} (h : cmd.Apart) (i : ℕ) (m : NsMetrics) :
    (captureNs i cmd m).Apart := by
  have heven := h.even
  have hslot : ∀ (j : ℕ) (l : Latency), (Metrics.captureNs i cmd m).latencyBuckets[j]? = some (some l) →
      j = i ∧ l.block = cmd.allocated + 1 ∨ j ≠ i ∧ cmd.latencyBuckets[j]? = some (some l) := by
    intro j l hj
    change (cmd.latencyBuckets.set i _)[j]? = _ at hj
    rw [List.getElem?_set] at hj
    split_ifs at hj with hij hlt
    · cases hj
      exact .inl ⟨hij.symm, rfl⟩
    · exact .inr ⟨Ne.symm hij, hj⟩
  have hcopies : (Metrics.captureNs i cmd m).nsMetrics.getD [] =
      cmd.nsMetrics.getD [] ++ (if cmd.nsMetrics.isSome then [⟨cmd.allocated, m.toCounters⟩] else []) := by
    show (cmd.nsMetrics.map _).getD [] = _
    cases cmd.nsMetrics <;> rfl
  refine ⟨?_, ?_, ?_, ?_, ?_⟩
  · show (cmd.allocated + 2) % 2 = 0
    omega
  · intro c hc
    show c.block < cmd.allocated + 2 ∧ _
    rw [hcopies, List.mem_append] at hc
    rcases hc with hc | hc
    · have hold := h.copies c hc
      omega
    · split_ifs at hc
      · rw [List.mem_singleton.1 hc]
        exact ⟨Nat.lt_add_of_pos_right Nat.two_pos, heven⟩
      · cases hc
  · rw [hcopies, List.map_append, List.nodup_append]
    refine ⟨h.copies_nodup, ?_, ?_⟩
    · split_ifs
      · exact List.nodup_singleton _
      · exact List.nodup_nil
    · intro a ha b hb
      obtain ⟨c, hc, rfl⟩ := List.mem_map.1 ha
      have hold := h.copies c hc
      split_ifs at hb
      · rw [List.mem_singleton.1 hb]
        exact hold.1.ne
      · cases hb
  · intro j l hj
    show l.block < cmd.allocated + 2 ∧ _
    rcases hslot j l hj with ⟨-, hblock⟩ | ⟨-, hold⟩
    · omega
    · have hold := h.slots j l hold
      omega
  · intro j j' l l' hj hj' heq
    rcases hslot j l hj with ⟨rfl, hblock⟩ | ⟨-, hold⟩
    · rcases hslot j' l' hj' with ⟨rfl, -⟩ | ⟨-, hold'⟩
      · rfl
      · have hlt := (h.slots j' l' hold').1
        omega
    · rcases hslot j' l' hj' with ⟨rfl, hblock'⟩ | ⟨-, hold'⟩
      · have hlt := (h.slots j l hold).1
        omega
      · exact h.slots_inj j j' l l' hold hold' heq

theorem MetricsCommand.Apart.captureNode {cmd : MetricsCommand} (h : cmd.Apart) (n : Node × ℕ) :
    (captureNode cmd n).Apart := by
  unfold Metrics.captureNode
  have hstart : ({ cmd with nsMetrics := some [] } : MetricsCommand).Apart :=
    ⟨h.even, nofun, List.nodup_nil, h.slots, h.slots_inj⟩
  exact List.foldlRecOn n.1.metrics _ hstart fun _ hcmd m _ => hcmd.captureNs n.2 m

theorem apart_disableListener (nodes : List Node) : (disableListener nodes).Apart := by
  have hnone : ∀ (i : ℕ) (l : Latency), (start nodes.length).latencyBuckets[i]? ≠ some (some l) := by
    intro i l h
    have hmem : some l ∈ List.replicate nodes.length none := List.mem_of_getElem? h
    exact nomatch List.eq_of_mem_replicate hmem
  have hstart : (start nodes.length).Apart :=
    ⟨rfl, nofun, List.nodup_nil, fun i l h => absurd h (hnone i l), fun i _ l _ h => absurd h (hnone i l)⟩
  exact List.foldlRecOn nodes.zipIdx _ hstart fun _ hcmd n _ => hcmd.captureNode n

theorem MetricsCommand.Apart.freed_nodup {cmd : MetricsCommand} (h : cmd.Apart)
    (hfilled : ∀ p ∈ cmd.freed, p.isSome = true) : cmd.freed.Nodup := by
  unfold MetricsCommand.freed at hfilled ⊢
  rw [List.nodup_append]
  refine ⟨?_, ?_, ?_⟩
  · split_ifs at hfilled ⊢
    · rw [List.nodup_iff_getElem?_ne_getElem?]
      intro i j hij hj heq
      rw [List.length_map] at hj
      rw [List.getElem?_map, List.getElem?_map, List.getElem?_eq_getElem hj,
        List.getElem?_eq_getElem (hij.trans hj), Option.map_some, Option.map_some, Option.some.injEq] at heq
      have hsome := hfilled (cmd.latencyBuckets[j].map Latency.block)
        (List.mem_append_left _ (List.mem_map_of_mem (List.getElem_mem hj)))
      rw [Option.isSome_map, Option.isSome_iff_exists] at hsome
      obtain ⟨l', hl'⟩ := hsome
      rw [hl', Option.map_some, Option.map_eq_some_iff] at heq
      obtain ⟨l, hl, hblock⟩ := heq
      have heq := h.slots_inj i j l l' (by rw [List.getElem?_eq_getElem (hij.trans hj), hl])
        (by rw [List.getElem?_eq_getElem hj, hl']) hblock
      omega
    · exact List.nodup_nil
  · have hnodup := h.copies_nodup.map (Option.some_injective ℕ)
    rwa [List.map_map] at hnodup
  · intro a ha b hb
    obtain ⟨c, hc, rfl⟩ := List.mem_map.1 hb
    split_ifs at ha
    · obtain ⟨slot, hslot, rfl⟩ := List.mem_map.1 ha
      rintro heq
      obtain ⟨l, rfl, hblock⟩ := Option.map_eq_some_iff.1 heq
      obtain ⟨i, hi⟩ := List.mem_iff_getElem?.1 hslot
      have hodd := (h.slots i l hi).2
      have heven := (h.copies c hc).2
      omega
    · cases ha

theorem freedOnce_iff {nodes : List Node} : FreedOnce nodes ↔ AllFilled nodes := by
  have hheld : HoldsNodes nodes.length nodes (disableListener nodes) := holdsNodes nodes le_rfl
  have happart := apart_disableListener nodes
  unfold FreedOnce
  rw [and_iff_left_of_imp happart.freed_nodup]
  generalize disableListener nodes = cmd at hheld
  have hset : cmd.latencyBucketsSet = true ↔ ∃ node ∈ nodes, node.metrics ≠ [] := by
    rw [hheld.set, List.any_eq_true]
    simp
  have hslot : ∀ (i : ℕ) (node : Node), nodes[i]? = some node →
      (cmd.latencyBuckets[i]?.join.isSome = true ↔ node.metrics ≠ []) := by
    intro i node hi
    have hslot := congrArg Option.isSome (hheld.slot i)
    rw [MetricsCommand.slot, Option.isSome_map, Option.isSome_map, hi, Option.bind_some] at hslot
    rw [hslot, List.getLast?_isSome]
  unfold AllFilled MetricsCommand.freed
  rw [← hset]
  constructor
  · intro h hsome node hnode
    obtain ⟨i, hi⟩ := List.mem_iff_getElem?.1 hnode
    have hlt : i < cmd.latencyBuckets.length := by
      rw [hheld.length]
      exact (List.getElem?_eq_some_iff.1 hi).1
    rw [if_pos hsome] at h
    have hfilled := h (cmd.latencyBuckets[i].map Latency.block)
      (List.mem_append_left _ (List.mem_map_of_mem (List.getElem_mem hlt)))
    rw [Option.isSome_map] at hfilled
    refine (hslot i node hi).1 ?_
    rw [List.getElem?_eq_getElem hlt]
    exact hfilled
  · intro h p hp
    rcases List.mem_append.1 hp with hp | hp
    · split_ifs at hp with hsome
      · obtain ⟨slot, hmem, rfl⟩ := List.mem_map.1 hp
        obtain ⟨i, hi⟩ := List.mem_iff_getElem?.1 hmem
        have hlt : i < nodes.length := by
          rw [← hheld.length]
          exact (List.getElem?_eq_some_iff.1 hi).1
        have hfilled := (hslot i nodes[i] (List.getElem?_eq_getElem hlt)).2
          (h hsome nodes[i] (List.getElem_mem hlt))
        rw [hi] at hfilled
        rw [Option.isSome_map]
        exact hfilled
      · cases hp
    · obtain ⟨c, -, rfl⟩ := List.mem_map.1 hp
      rfl

/-- The listener is told of every namespace as it is, and what was filled is freed once. -/
theorem listener_told_iff (nodes later : List Node) :
    Reported nodes later ∧ FreedOnce nodes ↔
      (Uniform nodes ∧ AllFilled nodes) ∧ List.Forall₂ SameNode nodes later := by
  rw [reported_iff, freedOnce_iff, and_assoc, and_comm]

/-- A namespace that was only read from. -/
def quietNamespace (name : String) (bytesIn : UInt64) : NsMetrics where
  ns := (JsString.lit name).utf8
  bytesIn := bytesIn
  bytesOut := 0
  errorCount := 0
  timeoutCount := 0
  keyBusyCount := 0
  columns := 0
  latency := fun _ => []
  length_latency := fun _ => rfl

def twoNamespaces : Node := ⟨(JsString.lit "A").utf8, [quietNamespace "test" 1, quietNamespace "bar" 2]⟩

def noNamespaces : Node := ⟨(JsString.lit "B").utf8, []⟩

/-- The second namespace is shown with the bytes of the first, and a slot is freed that nobody filled. -/
theorem listener_mistaken :
    ¬Reported [twoNamespaces] [twoNamespaces] ∧ ¬FreedOnce [noNamespaces, twoNamespaces] := by
  constructor
  · intro h
    have hmem : quietNamespace "bar" 2 ∈ twoNamespaces.metrics := .tail _ (.head _)
    obtain ⟨f, hf, hshow⟩ := (reported_iff.1 h).2.counters _ (List.mem_singleton_self _) _ hmem
    cases hf
    have hbytes : (2 : UInt64) = 1 := hshow.bytesIn
    exact absurd hbytes (by decide)
  · intro h
    exact absurd (h.1 none (.head _)) (by decide)

end AerospikeNode.Metrics
