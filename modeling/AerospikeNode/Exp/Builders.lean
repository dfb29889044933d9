import AerospikeNode.Exp.Entry

/-!
# The expression builders of `lib/exp.js`

A builder returns a JavaScript array; most splice the arrays of their operands into it, by `concat`
or by spreading, so that the result is a flat array of entries. `paramsExp` spreads its list of
operands but not the operands, which stay arrays inside the array.

`Exp` is a nest of builder calls and `Exp.build` the array it evaluates to. `build_isExpression` says
exactly which nests give a flat array that reads as one term.
-/

namespace AerospikeNode
open PrefixTerm (Shape Terms)

/-- An element of an array a builder returns. -/
inductive Item where
  | entry (e : Entry)
  | array (xs : List Item)

abbrev JsArray := List Item

/-- A flat array of entries that reads as exactly one prefix term. -/
def IsExpression (xs : JsArray) : Prop := ∃ es, xs = es.map Item.entry ∧ IsTerm es

/-- `_valueExp` -/
def valueExp (op : ExpOp) (payload : JsValue → Payload) (value : JsValue) : JsArray :=
  [.entry { op, payload := payload value }]

/-- `_valueExpBytes` -/
def valueExpBytes (op : ExpOp) (payload : JsValue → JsValue → Payload) (value size : JsValue) : JsArray :=
  [.entry { op, payload := payload value size }]

/-- `_rawStr` -/
def rawStr : JsValue → JsArray := valueExp .valRawstr .strVal

/-- `_metaExp` -/
def metaExp (op : ExpOp) : JsArray := [.entry { op, count := some 1 }]

/-- `_cmpExp` -/
def cmpExp (op : ExpOp) (left right : JsArray) : JsArray :=
  [.entry { op, count := some 3 }] ++ left ++ right

/-- `_VAExp` -/
def VAExp (op : ExpOp) (expr : List JsArray) : JsArray :=
  [.entry { op }] ++ expr.flatten ++ [.entry { op := .endOfVaArgs }]

/-- `_paramsExp`: the operands are not spliced. -/
def paramsExp (op : ExpOp) (params : List JsArray) : JsArray :=
  .entry { op, count := some (params.length + 1) } :: params.map Item.array

namespace exp

def bool := valueExp .valBool .boolVal
def int := valueExp .valInt .intVal
def uint := valueExp .valUint .uintVal
def float := valueExp .valFloat .floatVal
def str := valueExp .valStr .strVal
def bytes := valueExpBytes .valBytes .bytesVal
def geo := valueExp .valGeo .value
def nil : JsArray := [.entry { op := .asVal, payload := .value .null }]
def inf : JsArray := [.entry { op := .asVal, payload := .inf }]
def wildcard : JsArray := [.entry { op := .asVal, payload := .wildcard }]
def list := valueExp .asVal .value
def map := valueExp .asVal .value

section
variable (N : NativeEnums)

/-- `_keyTypeExp` -/
def keyTypeExp (type : ExpType) : JsArray :=
  [.entry { op := .key, count := some 2 }] ++ int (.int (N.expType type))

def keyInt := keyTypeExp N .int
def keyStr := keyTypeExp N .str
def keyBlob := keyTypeExp N .blob
def keyExist : JsArray := [.entry { op := .keyExist, count := some 1 }]

/-- `_binTypeExp` -/
def binTypeExp (type : ExpType) (binName : JsValue) : JsArray :=
  [.entry { op := .bin, count := some 3 }] ++ int (.int (N.expType type)) ++ rawStr binName

def binBool := binTypeExp N .bool
def binInt := binTypeExp N .int
def binFloat := binTypeExp N .float
def binStr := binTypeExp N .str
def binBlob := binTypeExp N .blob
def binGeo := binTypeExp N .geojson
def binList := binTypeExp N .list
def binMap := binTypeExp N .map
def binHll := binTypeExp N .hll
end

def binType (binName : JsValue) : JsArray :=
  [.entry { op := .binType, count := some 2 }] ++ rawStr binName

def setName := metaExp .setName
def deviceSize := metaExp .deviceSize
def lastUpdate := metaExp .lastUpdate
def sinceUpdate := metaExp .sinceUpdate
def voidTime := metaExp .voidTime
def ttl := metaExp .ttl
-- `exp_enum.cc` gives `ops.IS_TOMBSTONE` the code of `NOT`.
def isTombstone := metaExp .not
def memorySize := metaExp .memorySize
def recordSize := metaExp .recordSize
-- The documented `mod` argument is dropped.
def digestModulo := metaExp .digestModulo

def eq := cmpExp .cmpEq
def ne := cmpExp .cmpNe
def gt := cmpExp .cmpGt
def ge := cmpExp .cmpGe
def lt := cmpExp .cmpLt
def le := cmpExp .cmpLe
def cmpGeo := cmpExp .cmpGeo

def cmpRegex (options regex : JsValue) (cmpStr : JsArray) : JsArray :=
  [.entry { op := .cmpRegex, count := some 4 }] ++ int options ++ rawStr regex ++ cmpStr

/-- `BIN_TYPE_UNDEF` is 0. -/
def binExists (binName : JsValue) : JsArray := ne (binType binName) (int (.int 0))

def not (expr : JsArray) : JsArray := [.entry { op := .not, count := some 2 }] ++ expr

def and := VAExp .and
def or := VAExp .or
def exclusive := VAExp .exclusive
def add := VAExp .add
def sub := VAExp .sub
def mul := VAExp .mul
def div := VAExp .div
def intAnd := VAExp .intAnd
def intOr := VAExp .intOr
def intXor := VAExp .intXor
def min := VAExp .min
def max := VAExp .max
def cond := VAExp .cond
def let_ := VAExp .letOp

def pow := paramsExp .pow
def log := paramsExp .log
def mod := paramsExp .mod
def abs := paramsExp .abs
def floor := paramsExp .floor
def ceil := paramsExp .ceil
def toInt := paramsExp .toInt
def toFloat := paramsExp .toFloat
def intNot := paramsExp .intNot
def intLshift := paramsExp .intLshift
def intRshift := paramsExp .intRshift
def intArshift := paramsExp .intArshift
def intCount := paramsExp .intCount
def intLscan := paramsExp .intLscan
def intRscan := paramsExp .intRscan

def def_ (varName : JsValue) (expr : JsArray) : JsArray := rawStr varName ++ expr

def var (varName : JsValue) : JsArray := [.entry { op := .var, count := some 2 }] ++ rawStr varName

end exp

/-- The builders that take no expression. -/
inductive LeafBuilder where
  | bool (value : JsValue) | int (value : JsValue) | uint (value : JsValue) | float (value : JsValue)
  | str (value : JsValue) | bytes (value size : JsValue) | geo (value : JsValue)
  | nil | inf | wildcard | list (value : JsValue) | map (value : JsValue)
  | keyInt | keyStr | keyBlob | keyExist
  | binBool (name : JsValue) | binInt (name : JsValue) | binFloat (name : JsValue)
  | binStr (name : JsValue) | binBlob (name : JsValue) | binGeo (name : JsValue)
  | binList (name : JsValue) | binMap (name : JsValue) | binHll (name : JsValue)
  | binType (name : JsValue) | binExists (name : JsValue)
  | setName | deviceSize | lastUpdate | sinceUpdate | voidTime | ttl | isTombstone
  | memorySize | recordSize | digestModulo
  | var (name : JsValue)

/-- The builders over two expressions. -/
inductive CmpBuilder where
  | eq | ne | gt | ge | lt | le | cmpGeo

/-- The builders over any number of expressions that end them by `END_OF_VA_ARGS`. -/
inductive VABuilder where
  | and | or | exclusive | add | sub | mul | div | intAnd | intOr | intXor | min | max | cond | let_

/-- The builders over any number of expressions that count them. -/
inductive ParamsBuilder where
  | pow | log | mod | abs | floor | ceil | toInt | toFloat
  | intNot | intLshift | intRshift | intArshift | intCount | intLscan | intRscan

def LeafBuilder.build (N : NativeEnums) : LeafBuilder → JsArray
  | bool v => exp.bool v | int v => exp.int v | uint v => exp.uint v | float v => exp.float v
  | str v => exp.str v | bytes v size => exp.bytes v size | geo v => exp.geo v
  | nil => exp.nil | inf => exp.inf | wildcard => exp.wildcard
  | list v => exp.list v | map v => exp.map v
  | keyInt => exp.keyInt N | keyStr => exp.keyStr N | keyBlob => exp.keyBlob N
  | keyExist => exp.keyExist
  | binBool n => exp.binBool N n | binInt n => exp.binInt N n | binFloat n => exp.binFloat N n
  | binStr n => exp.binStr N n | binBlob n => exp.binBlob N n | binGeo n => exp.binGeo N n
  | binList n => exp.binList N n | binMap n => exp.binMap N n | binHll n => exp.binHll N n
  | binType n => exp.binType n | binExists n => exp.binExists n
  | setName => exp.setName | deviceSize => exp.deviceSize | lastUpdate => exp.lastUpdate
  | sinceUpdate => exp.sinceUpdate | voidTime => exp.voidTime | ttl => exp.ttl
  | isTombstone => exp.isTombstone | memorySize => exp.memorySize | recordSize => exp.recordSize
  | digestModulo => exp.digestModulo
  | var n => exp.var n

def CmpBuilder.build : CmpBuilder → JsArray → JsArray → JsArray
  | eq => exp.eq | ne => exp.ne | gt => exp.gt | ge => exp.ge | lt => exp.lt | le => exp.le
  | cmpGeo => exp.cmpGeo

def VABuilder.build : VABuilder → List JsArray → JsArray
  | and => exp.and | or => exp.or | exclusive => exp.exclusive
  | add => exp.add | sub => exp.sub | mul => exp.mul | div => exp.div
  | intAnd => exp.intAnd | intOr => exp.intOr | intXor => exp.intXor
  | min => exp.min | max => exp.max | cond => exp.cond | let_ => exp.let_

def ParamsBuilder.build : ParamsBuilder → List JsArray → JsArray
  | pow => exp.pow | log => exp.log | mod => exp.mod | abs => exp.abs | floor => exp.floor
  | ceil => exp.ceil | toInt => exp.toInt | toFloat => exp.toFloat | intNot => exp.intNot
  | intLshift => exp.intLshift | intRshift => exp.intRshift | intArshift => exp.intArshift
  | intCount => exp.intCount | intLscan => exp.intLscan | intRscan => exp.intRscan

/-- A nest of builder calls. -/
inductive Exp where
  | leaf (b : LeafBuilder)
  | cmp (b : CmpBuilder) (left right : Exp)
  | cmpRegex (options regex : JsValue) (cmpStr : Exp)
  | not (expr : Exp)
  | va (b : VABuilder) (expr : List Exp)
  | params (b : ParamsBuilder) (params : List Exp)
  | def_ (varName : JsValue) (expr : Exp)

namespace Exp
variable (N : NativeEnums)

mutual
/-- The array a nest of builder calls evaluates to. -/
def build : Exp → JsArray
  | leaf b => b.build N
  | cmp b l r => b.build (build l) (build r)
  | cmpRegex options regex e => exp.cmpRegex options regex (build e)
  | not e => exp.not (build e)
  | va b es => b.build (buildAll es)
  | params b es => b.build (buildAll es)
  | def_ name e => exp.def_ name (build e)

def buildAll : List Exp → List JsArray
  | [] => []
  | e :: es => build e :: buildAll es
end

mutual
/-- No builder made by `paramsExp` is given an operand. -/
def ParamFree : Exp → Bool
  | leaf _ => true
  | cmp _ l r => ParamFree l && ParamFree r
  | cmpRegex _ _ e => ParamFree e
  | not e => ParamFree e
  | va _ es => AllParamFree es
  | params _ es => es.isEmpty
  | def_ _ e => ParamFree e

def AllParamFree : List Exp → Bool
  | [] => true
  | e :: es => ParamFree e && AllParamFree es
end

/-- Every `def` stands below a variadic builder: its variable name and its expression are two terms
of the enclosing `let`. -/
def DefInLet : Exp → Bool
  | leaf _ => true
  | cmp _ l r => DefInLet l && DefInLet r
  | cmpRegex _ _ e => DefInLet e
  | not e => DefInLet e
  | va _ _ => true
  | params _ _ => true
  | def_ _ _ => false

/-- The number of terms in the array of a nest without `paramsExp` operands. -/
def width : Exp → ℕ
  | leaf _ => 1
  | cmp _ l r => width l + width r - 1
  | cmpRegex _ _ e => width e
  | not e => width e
  | va _ _ => 1
  | params _ _ => 1
  | def_ _ e => 1 + width e

end Exp

/-- A flat array of `n` terms. -/
def Reads (n : ℕ) (xs : JsArray) : Prop := ∃ es, xs = es.map Item.entry ∧ Terms Entry.shape n es

namespace Reads
variable {n m k : ℕ} {xs ys : JsArray} {e c : Entry}

theorem nil : Reads 0 [] := ⟨[], rfl, .nil⟩

theorem append : Reads n xs → Reads m ys → Reads (n + m) (xs ++ ys)
  | ⟨es, hes, h⟩, ⟨es', hes', h'⟩ => ⟨es ++ es', by rw [hes, hes', List.map_append], h.append h'⟩

theorem entry (he : e.shape = .leaf) : Reads 1 [.entry e] := ⟨[e], rfl, .leaf he⟩

/-- An operator whose operands are the first terms of what follows. -/
theorem op (he : e.shape = .node 1 k) : Reads (k + n) xs → Reads (1 + n) (.entry e :: xs)
  | ⟨es, hes, h⟩ => ⟨e :: es, by rw [hes, List.map_cons], h.apply_add he⟩

theorem variadic (he : e.shape = .variadic) (hc : c.shape = .close) :
    Reads k xs → Reads 1 (.entry e :: (xs ++ [.entry c]))
  | ⟨es, hes, h⟩ =>
    ⟨e :: (es ++ [c]), by rw [hes, List.map_cons, List.map_append]; rfl, .bracket he h hc⟩

theorem unique : Reads n xs → Reads m xs → n = m
  | ⟨_, hes, h⟩, ⟨_, hes', h'⟩ => by
    obtain rfl := (List.map_inj_right fun _ _ h => by injection h).1 (hes.symm.trans hes')
    exact h.unique h'

theorem array_notMem : Reads n xs → Item.array ys ∉ xs
  | ⟨_, hes, _⟩, hmem => by
    rw [hes, List.mem_map] at hmem
    obtain ⟨_, _, h⟩ := hmem
    injection h

end Reads

theorem reads_valueExp {op : ExpOp} {payload : JsValue → Payload} {v : JsValue}
    (h : (Entry.mk op none (payload v)).shape = .leaf) : Reads 1 (valueExp op payload v) := .entry h

theorem reads_rawStr (v : JsValue) : Reads 1 (rawStr v) := reads_valueExp rfl

theorem reads_int (v : JsValue) : Reads 1 (exp.int v) := reads_valueExp rfl

theorem reads_keyTypeExp (N : NativeEnums) (type : ExpType) : Reads 1 (exp.keyTypeExp N type) :=
  .op (n := 0) rfl (reads_int _)

theorem reads_binTypeExp (N : NativeEnums) (type : ExpType) (v : JsValue) :
    Reads 1 (exp.binTypeExp N type v) := .op (n := 0) rfl ((reads_int _).append (reads_rawStr _))

theorem reads_binType (v : JsValue) : Reads 1 (exp.binType v) := .op (n := 0) rfl (reads_rawStr _)

/-- A comparison of arrays of `n` and `m` terms takes two of them. -/
theorem reads_cmpExp {op : ExpOp} {l r : JsArray} {n m : ℕ}
    (h : (Entry.mk op (some 3) .none).shape = .node 1 2) (hl : Reads n l) (hr : Reads m r)
    (hn : 1 ≤ n) (hm : 1 ≤ m) : Reads (n + m - 1) (cmpExp op l r) := by
  have hlr : Reads (2 + (n + m - 2)) (l ++ r) := by
    have := hl.append hr
    rwa [show n + m = 2 + (n + m - 2) by omega] at this
  have := hlr.op h
  rwa [show 1 + (n + m - 2) = n + m - 1 by omega] at this

theorem reads_leaf (N : NativeEnums) : ∀ b : LeafBuilder, Reads 1 (b.build N)
  | .bool _ | .int _ | .uint _ | .float _ | .str _ | .geo _ | .list _ | .map _ => reads_valueExp rfl
  | .bytes _ _ | .nil | .inf | .wildcard => .entry rfl
  | .keyInt | .keyStr | .keyBlob => reads_keyTypeExp N _
  | .binBool _ | .binInt _ | .binFloat _ | .binStr _ | .binBlob _ | .binGeo _ | .binList _
  | .binMap _ | .binHll _ => reads_binTypeExp N _ _
  | .binType _ => reads_binType _
  | .binExists _ => reads_cmpExp rfl (reads_binType _) (reads_int _) (by decide) (by decide)
  | .keyExist | .setName | .deviceSize | .lastUpdate | .sinceUpdate | .voidTime | .ttl
  | .isTombstone | .memorySize | .recordSize | .digestModulo => .entry rfl
  | .var _ => .op (n := 0) rfl (reads_rawStr _)

theorem CmpBuilder.build_eq (b : CmpBuilder) :
    ∃ op, b.build = cmpExp op ∧ (Entry.mk op (some 3) .none).shape = .node 1 2 := by
  cases b <;> exact ⟨_, rfl, rfl⟩

theorem VABuilder.build_eq (b : VABuilder) :
    ∃ op, b.build = VAExp op ∧ (Entry.mk op none .none).shape = .variadic := by
  cases b <;> exact ⟨_, rfl, rfl⟩

theorem ParamsBuilder.build_eq (b : ParamsBuilder) :
    ∃ op, b.build = paramsExp op ∧ (Entry.mk op (some 1) .none).shape = .leaf := by
  cases b <;> exact ⟨_, rfl, rfl⟩

namespace Exp
variable {N : NativeEnums}

theorem one_le_width : ∀ e : Exp, 1 ≤ e.width
  | leaf _ | va _ _ | params _ _ => Nat.le_refl 1
  | cmp _ l r => by
    have := one_le_width l
    have := one_le_width r
    simp only [width]; omega
  | cmpRegex _ _ e | not e => one_le_width e
  | def_ _ _ => Nat.le_add_right 1 _

theorem width_eq_one : ∀ e : Exp, e.width = 1 ↔ e.DefInLet = true
  | leaf _ | va _ _ | params _ _ => by simp [width, DefInLet]
  | cmp _ l r => by
    have hl := one_le_width l
    have hr := one_le_width r
    rw [width, DefInLet, Bool.and_eq_true, ← width_eq_one l, ← width_eq_one r]
    omega
  | cmpRegex _ _ e | not e => width_eq_one e
  | def_ _ e => by
    have := one_le_width e
    rw [width, DefInLet]
    exact ⟨fun h => absurd h (by omega), nofun⟩

mutual
theorem reads_build : ∀ e : Exp, e.ParamFree = true → Reads e.width (e.build N)
  | leaf b, _ => reads_leaf N b
  | cmp b l r, h => by
    rw [ParamFree, Bool.and_eq_true] at h
    obtain ⟨op, hb, hop⟩ := b.build_eq
    rw [build, hb]
    exact reads_cmpExp hop (reads_build l h.1) (reads_build r h.2) (one_le_width l) (one_le_width r)
  | cmpRegex options regex e, h => by
    have hops := ((reads_int options).append (reads_rawStr regex)).append (reads_build e h)
    have hw := one_le_width e
    rw [show 1 + 1 + e.width = 3 + (e.width - 1) by omega] at hops
    have := hops.op (e := ⟨.cmpRegex, some 4, .none⟩) rfl
    rwa [show 1 + (e.width - 1) = e.width by omega] at this
  | not e, h => by
    have hops := reads_build e h
    have hw := one_le_width e
    rw [show e.width = 1 + (e.width - 1) by omega] at hops
    have := hops.op (e := ⟨.not, some 2, .none⟩) rfl
    rwa [show 1 + (e.width - 1) = e.width by omega] at this
  | va b es, h => by
    obtain ⟨op, hb, hop⟩ := b.build_eq
    obtain ⟨k, hk⟩ := reads_buildAll es h
    rw [build, hb]
    exact .variadic hop rfl hk
  | params b es, h => by
    obtain ⟨op, hb, hop⟩ := b.build_eq
    obtain rfl := List.isEmpty_iff.1 h
    rw [build, hb]
    exact .entry hop
  | def_ _ e, h => (reads_rawStr _).append (reads_build e h)

theorem reads_buildAll : ∀ es : List Exp, AllParamFree es = true →
    ∃ k, Reads k (buildAll N es).flatten
  | [], _ => ⟨0, .nil⟩
  | e :: es, h => by
    rw [AllParamFree, Bool.and_eq_true] at h
    obtain ⟨k, hk⟩ := reads_buildAll es h.2
    exact ⟨_, (reads_build e h.1).append hk⟩
end

mutual
/-- An operand of a `paramsExp` builder stays an array in the outermost array. -/
theorem array_mem_build : ∀ e : Exp, e.ParamFree = false → ∃ ys, Item.array ys ∈ e.build N
  | leaf _, h => nomatch h
  | cmp b l r, h => by
    rw [ParamFree, Bool.and_eq_false_iff] at h
    obtain ⟨op, hb, -⟩ := b.build_eq
    rw [build, hb]
    rcases h with h | h
    · obtain ⟨ys, hys⟩ := array_mem_build l h
      exact ⟨ys, by simp [cmpExp, hys]⟩
    · obtain ⟨ys, hys⟩ := array_mem_build r h
      exact ⟨ys, by simp [cmpExp, hys]⟩
  | cmpRegex _ _ e, h => by
    obtain ⟨ys, hys⟩ := array_mem_build e h
    exact ⟨ys, by simp [build, exp.cmpRegex, hys]⟩
  | not e, h => by
    obtain ⟨ys, hys⟩ := array_mem_build e h
    exact ⟨ys, by simp [build, exp.not, hys]⟩
  | va b es, h => by
    obtain ⟨op, hb, -⟩ := b.build_eq
    obtain ⟨ys, hys⟩ := array_mem_buildAll es h
    rw [build, hb]
    exact ⟨ys, by simp only [VAExp, List.mem_append]; exact .inl (.inr hys)⟩
  | params b [], h => nomatch h
  | params b (e :: es), _ => by
    obtain ⟨op, hb, -⟩ := b.build_eq
    rw [build, hb]
    exact ⟨e.build N, by simp [paramsExp, buildAll]⟩
  | def_ _ e, h => by
    obtain ⟨ys, hys⟩ := array_mem_build e h
    exact ⟨ys, by simp [build, exp.def_, hys]⟩

theorem array_mem_buildAll : ∀ es : List Exp, AllParamFree es = false →
    ∃ ys, Item.array ys ∈ (buildAll N es).flatten
  | [], h => nomatch h
  | e :: es, h => by
    rw [AllParamFree, Bool.and_eq_false_iff] at h
    simp only [buildAll, List.flatten_cons, List.mem_append]
    rcases h with h | h
    · obtain ⟨ys, hys⟩ := array_mem_build e h
      exact ⟨ys, .inl hys⟩
    · obtain ⟨ys, hys⟩ := array_mem_buildAll es h
      exact ⟨ys, .inr hys⟩
end

/-- A nest of builder calls evaluates to a flat array that reads as one term exactly when no
`paramsExp` builder is given an operand and every `def` stands in a `let`. -/
theorem build_isExpression_iff (N : NativeEnums) (e : Exp) :
    IsExpression (e.build N) ↔ e.ParamFree = true ∧ e.DefInLet = true := by
  constructor
  · intro h
    have hp : e.ParamFree = true := by
      by_contra hp
      obtain ⟨ys, hys⟩ := array_mem_build (N := N) e (Bool.eq_false_iff.2 hp)
      exact Reads.array_notMem h hys
    exact ⟨hp, (width_eq_one e).1 ((reads_build e hp).unique h)⟩
  · rintro ⟨hp, hd⟩
    have := reads_build (N := N) e hp
    rwa [(width_eq_one e).2 hd] at this

/-- `exp.abs(exp.int(1))`: the operand is left as an array in the array. -/
theorem abs_int_not_isExpression :
    ¬ ∀ N : NativeEnums, IsExpression (build N (params .abs [leaf (.int (.int 1))])) := by
  intro h
  obtain ⟨es, hes, -⟩ := h ⟨fun _ => 0, fun _ => 0, fun _ => 0, fun _ => 0, fun _ => 0⟩
  rcases es with _ | ⟨e, _ | ⟨e', es⟩⟩
  · cases hes
  · injection hes with _ h; cases h
  · injection hes with _ h
    injection h with h _
    cases h

end Exp

end AerospikeNode
