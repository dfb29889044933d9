import AerospikeNode.Admin.Arrays
import AerospikeNode.Client.Hosts
import AerospikeNode.Cmd.Async

/-!
# Commands about indexes, nodes, jobs, sets and UDF modules

`IndexCreate`, `IndexRemove`, `InfoAny`, `InfoForeach`, `InfoHost`, `InfoNode`, `JobInfo`, `Truncate`, `Register`
and `UDFRemove` of `src/main/commands`. `prepare` makes a command of the arguments, a worker thread hands it
to the C client, and `respond` calls back.

`prepare_says_iff`: for which arguments the C client is asked for what they ask for.
-/

namespace AerospikeNode

/-- `AS_NODE_NAME_SIZE` -/
def AS_NODE_NAME_SIZE : ℕ := 20

def MAX_FILENAME_LEN : ℕ := 255

inductive WorkerMethod where
  | indexCreate
  | indexRemove
  | infoAny
  | infoForeach
  | infoHost
  | infoNode
  | jobInfo
  | truncate
  | udfRegister
  | udfRemove
deriving DecidableEq

/-- What comes of opening, measuring and reading a file. -/
inductive UdfFile where
  | unopened
  | unseekable (rv : JsString)
  | unmeasured (rv : JsString)
  /-- `cf_malloc` returns `NULL`. -/
  | unallocated
  | content (bytes : Bytes)

/-- What the methods call: `infopolicy_from_jsobject`, `compile_expression` with what it stores (`none` inside is
`NULL`), `get_optional_cdt_context`, the file of a path and `as_basename`; `AEROSPIKE_ERR` and
`AEROSPIKE_ERR_CLIENT`; and `__func__`, `__FILE__` and `__LINE__` where a command gets an error with a message. -/
structure MethodEnv (P X C : Type) where
  infopolicy : JsValue → Option P
  compile : JsValue → Option (Option X)
  context : JsValue → Option (Option C)
  file : Bytes → UdfFile
  basename : Bytes → Option Bytes
  err : ℤ
  err_ne : err ≠ Status.ok
  errClient : ℤ
  errClient_ne : errClient ≠ Status.ok
  func : WorkerMethod → JsString → JsString
  path : WorkerMethod → JsString → JsString
  line : WorkerMethod → JsString → ℤ

/-- What an index is built over. The context is that of the outer `some`; `none` is a `with_context` that nothing
has set. -/
inductive IndexSource (X C : Type) where
  | exp (exp : X)
  | bin (name : Bytes) (context : Option (Option C))

/-- A command that is prepared: what its function of the C client is called with. A set that is `none` is an
array that nothing has written to. -/
inductive MethodCmd (P X C : Type) where
  | indexCreate (policy : Option P) (ns : Bytes) (set : Option Bytes) (source : Option (IndexSource X C))
      (index : Bytes) (itype dtype : Int32)
  | indexRemove (policy : Option P) (ns index : Bytes)
  | infoAny (policy : Option P) (request : Bytes)
  | infoForeach (policy : Option P) (request : Bytes)
  | infoHost (policy : Option P) (addr : Bytes) (port : UInt16) (request : Bytes)
  | infoNode (policy : Option P) (node request : Bytes)
  | jobInfo (policy : Option P) (module : Bytes) (jobId : UInt64)
  | truncate (policy : Option P) (ns : Bytes) (set : Option Bytes) (beforeNanos : UInt64)
  | udfRegister (policy : Option P) (filename : Bytes) (type : Int32) (content : Bytes)
  | udfRemove (policy : Option P) (module : Bytes)

namespace WorkerMethod

variable {P X C : Type} (env : MethodEnv P X C)

/-! ### The arguments -/

def typeChecks : WorkerMethod → List TypeCheck
  | indexCreate =>
    [.req 0 JsValue.isString "Namespace must be a string", .opt 1 JsValue.isString "Set must be a string",
      .opt 2 JsValue.isString "Bin must be a string", .opt 3 JsValue.isArray "Exp must be an array",
      .req 4 JsValue.isString "Index name must be a string", .req 5 isNumber "Index type must be an integer",
      .req 6 isNumber "Index datatype must be an integer", .opt 7 JsValue.isObject "Context must be an object",
      .opt 8 JsValue.isObject "Policy must be an object", .req 9 JsValue.isFunction "Callback must be a function"]
  | indexRemove =>
    [.req 0 JsValue.isString "Namespace must be a string", .req 1 JsValue.isString "Index name must be a string",
      .opt 2 JsValue.isObject "Policy must be an object", .req 3 JsValue.isFunction "Callback must be a function"]
  | infoAny | infoForeach =>
    [.opt 0 JsValue.isString "Request must be a string", .opt 1 JsValue.isObject "Policy must be an object",
      .req 2 JsValue.isFunction "Callback must be a function"]
  | infoHost =>
    [.opt 0 JsValue.isString "Request must be a string", .req 1 JsValue.isObject "Host must be an object",
      .opt 2 JsValue.isObject "Policy must be an object", .req 3 JsValue.isFunction "Callback must be a function"]
  | infoNode =>
    [.opt 0 JsValue.isString "Request must be a string", .req 1 JsValue.isString "Node must be a string",
      .opt 2 JsValue.isObject "Policy must be an object", .req 3 JsValue.isFunction "Callback must be a function"]
  | jobInfo =>
    [.req 0 isNumber "Job ID must be a number", .req 1 JsValue.isString "Module must be a string",
      .opt 2 JsValue.isObject "Policy must be an object", .req 3 JsValue.isFunction "Callback must be a function"]
  | truncate =>
    [.req 0 JsValue.isString "Namespace must be a string", .opt 1 JsValue.isString "Set must be a string",
      .req 2 isNumber "Before nanos must be a number", .opt 3 JsValue.isObject "Policy must be an object",
      .req 4 JsValue.isFunction "Callback must be a function"]
  | udfRegister =>
    [.req 0 JsValue.isString "Filename must be a string", .opt 1 isNumber "Type must be an integer",
      .opt 2 JsValue.isObject "Policy must be an object", .req 3 JsValue.isFunction "Callback must be a function"]
  | udfRemove =>
    [.req 0 JsValue.isString "Module must be a string", .opt 1 JsValue.isObject "Policy must be an object",
      .req 2 JsValue.isFunction "Callback must be a function"]

/-- No type check throws. -/
def accepts (m : WorkerMethod) (info : List JsValue) : Bool := m.typeChecks.all (·.passes info)

/-- `CmdSetError` -/
def setError (m : WorkerMethod) (code : ℤ) (message : JsString) : AsError where
  code := code
  message := message
  func := env.func m message
  file := env.path m message
  line := env.line m message
  inDoubt := false

/-- `CmdSetError` with `AEROSPIKE_ERR_PARAM`. -/
def paramErr (m : WorkerMethod) (message : String) : AsError := m.setError env Status.errParam (JsString.lit message)

/-- `*Nan::Utf8String(value.As<String>())` as a C string. -/
def cString : JsValue → Bytes
  | .str s => nativeStr s
  | _ => []

/-- `as_strlcpy(.., size) > size` is an error. -/
def copied (m : WorkerMethod) (size : ℕ) (message : String) (v : JsValue) : Except AsError Bytes :=
  let copy := strlcpy (cString v) size
  if size < copy.2 then .error (m.paramErr env message) else .ok copy.1

/-- A string that is copied if there is one. -/
def copiedOpt (m : WorkerMethod) (size : ℕ) (message : String) (v : JsValue) : Except AsError (Option Bytes) :=
  if v.isString then (m.copied env size message v).map some else .ok none

/-- The namespace of a command. -/
def nsArg (m : WorkerMethod) (v : JsValue) : Except AsError Bytes :=
  m.copied env AS_NAMESPACE_MAX_SIZE "Namespace exceeds max. length (32)" v

def setArg (m : WorkerMethod) (v : JsValue) : Except AsError (Option Bytes) :=
  m.copiedOpt env AS_SET_MAX_SIZE "Set exceeds max. length (64)" v

/-- The request of an info command; a value that is no string asks for everything. -/
def requestArg (m : WorkerMethod) (size : ℕ) (message : String) (v : JsValue) : Except AsError Bytes :=
  (m.copiedOpt env size message v).map fun request => request.getD []

def policyArg (m : WorkerMethod) (v : JsValue) : Except AsError (Option P) :=
  if v.isObject then
    match env.infopolicy v with
    | some policy => .ok (some policy)
    | none => .error (m.paramErr env "Policy parameter is invalid")
  else .ok none

/-- `Nan::To<int>(value).FromJust()` of a number. -/
def intArg : JsValue → Int32
  | .num n => n.toInt32
  | _ => 0

/-- `(uint64_t)Nan::To<int64_t>(value).FromJust()` of a number. -/
def uint64Arg : JsValue → UInt64
  | .num n => n.toInt64.toUInt64
  | _ => 0

/-- The address, with what is behind it in its buffer, and the port. -/
def hostArg (v : JsValue) : Except AsError (Bytes × UInt16) :=
  match hostFromJsobject v with
  | .ok host => .ok (host.addr, host.port)
  | .error _ => .error (infoHost.paramErr env "Host parameter is invalid")

def compileArg (v : JsValue) : Except AsError (Option X) :=
  if v.isArray then
    match env.compile v with
    | some exp => .ok exp
    | none => .error (indexCreate.paramErr env "Compiling expressions failed")
  else .ok none

/-- `with_context` and `context`. -/
def contextArg (v : JsValue) : Except AsError (Option (Option C)) :=
  if v.isObject then
    match env.context v with
    | some context => .ok (some context)
    | none => .error (indexCreate.paramErr env "Context parameter is invalid")
  else .ok none

/-- What `UdfRegister` reads of the file. -/
def contentArg (path : Bytes) : Except AsError Bytes :=
  match env.file path with
  | .unopened => .error (udfRegister.setError env env.err (JsString.lit "Cannot open file: " ++ JsString.decode path))
  | .unseekable rv =>
    .error (udfRegister.setError env env.errClient (JsString.lit "Cannot determine file size: fseek returned " ++ rv))
  | .unmeasured rv =>
    .error (udfRegister.setError env env.err (JsString.lit "Cannot determine file size: ftell returned " ++ rv))
  | .unallocated =>
    .error (udfRegister.setError env env.err (JsString.lit "Memory allocation for UDF buffer failed"))
  | .content bytes => .ok bytes

def filenameArg (path : Bytes) : Except AsError Bytes :=
  match env.basename path with
  | none => .error (udfRegister.setError env env.err (JsString.lit "Cannot determine UDF file basename"))
  | some name =>
    let copy := strlcpy name MAX_FILENAME_LEN
    if MAX_FILENAME_LEN < copy.2 then
      .error (udfRegister.setError env env.err (JsString.lit "UDF filename exceeds max. length (> 255)"))
    else .ok copy.1

/-- `AS_UDF_TYPE_LUA` is 0. -/
def udfType (v : JsValue) : Int32 := if isNumber v then intArg v else 0

/-- What `execute` of `IndexCreate` looks at: the expression, then whether there is a bin. -/
def indexSource (exp : Option X) (bin : Option Bytes) (context : Option (Option C)) : Option (IndexSource X C) :=
  match exp with
  | some exp => some (.exp exp)
  | none => bin.map fun name => .bin name context

/-- `prepare` -/
def prepare (m : WorkerMethod) (info : List JsValue) : Except AsError (MethodCmd P X C) :=
  let info i := info.getD i .undefined
  match m with
  | indexCreate => do
    let ns ← m.nsArg env (info 0)
    let set ← m.setArg env (info 1)
    let bin ← m.copiedOpt env AS_BIN_NAME_MAX_LEN "Bin name exceeds max. length (15)" (info 2)
    let exp ← compileArg env (info 3)
    let context ← contextArg env (info 7)
    let policy ← m.policyArg env (info 8)
    return .indexCreate policy ns set (indexSource exp bin context) (cString (info 4)) (intArg (info 5))
      (intArg (info 6))
  | indexRemove => do
    let ns ← m.nsArg env (info 0)
    let policy ← m.policyArg env (info 2)
    return .indexRemove policy ns (cString (info 1))
  | infoAny => do
    let request ← m.requestArg env MAX_INFO_REQUEST_LEN "Info request exceeds max. length" (info 0)
    let policy ← m.policyArg env (info 1)
    return .infoAny policy request
  | infoForeach => do
    let request ← m.requestArg env INFO_REQUEST_LEN "Info request exceeds max. length (50)" (info 0)
    let policy ← m.policyArg env (info 1)
    return .infoForeach policy request
  | infoHost => do
    let request ← m.requestArg env MAX_INFO_REQUEST_LEN "Info request exceeds max. length" (info 0)
    let host ← hostArg env (info 1)
    let policy ← m.policyArg env (info 2)
    return .infoHost policy host.1 host.2 request
  | infoNode => do
    let request ← m.requestArg env MAX_INFO_REQUEST_LEN "Info request exceeds max. length" (info 0)
    let policy ← m.policyArg env (info 2)
    return .infoNode policy ((cString (info 1)).take (AS_NODE_NAME_SIZE - 1)) request
  | jobInfo => do
    let policy ← m.policyArg env (info 2)
    return .jobInfo policy (cString (info 1)) (uint64Arg (info 0))
  | truncate => do
    let ns ← m.nsArg env (info 0)
    let set ← m.setArg env (info 1)
    let policy ← m.policyArg env (info 3)
    return .truncate policy ns set (uint64Arg (info 2))
  | udfRegister => do
    let path := cString (info 0)
    let content ← contentArg env path
    let filename ← filenameArg env path
    let policy ← m.policyArg env (info 2)
    return .udfRegister policy filename (udfType (info 1)) content
  | udfRemove => do
    let policy ← m.policyArg env (info 1)
    return .udfRemove policy (cString (info 0))

/-! ### Errors -/

/-- An error has another code than `AEROSPIKE_OK`. -/
def FailsWell {α : Type} (x : Except AsError α) : Prop := ∀ e, x = .error e → e.code ≠ Status.ok

section
variable {env} {m : WorkerMethod} {v : JsValue} {path : Bytes} {α β : Type}

theorem failsWell_ok {a : α} : FailsWell (.ok a) := nofun

theorem failsWell_paramErr {message : String} : FailsWell (.error (m.paramErr env message) : Except AsError α) := by
  rintro _ ⟨⟩
  show Status.errParam ≠ Status.ok
  decide

theorem failsWell_err {message : JsString} :
    FailsWell (.error (m.setError env env.err message) : Except AsError α) := by
  rintro _ ⟨⟩
  exact env.err_ne

theorem failsWell_errClient {message : JsString} :
    FailsWell (.error (m.setError env env.errClient message) : Except AsError α) := by
  rintro _ ⟨⟩
  exact env.errClient_ne

theorem FailsWell.bind {x : Except AsError α} {f : α → Except AsError β} (hx : FailsWell x)
    (hf : ∀ a, FailsWell (f a)) :
    FailsWell (x >>= f) := by
  cases x with
  | error e => exact fun e' h => hx e' (congrArg Except.error (Except.error.inj h))
  | ok a => exact hf a

theorem FailsWell.map {x : Except AsError α} (hx : FailsWell x) (f : α → β) : FailsWell (x.map f) := by
  cases x with
  | error e => exact fun e' h => hx e' (congrArg Except.error (Except.error.inj h))
  | ok a => exact failsWell_ok

theorem failsWell_copied {size : ℕ} {message : String} : FailsWell (m.copied env size message v) := by
  unfold copied
  dsimp only
  split_ifs
  · exact failsWell_paramErr
  · exact failsWell_ok

theorem failsWell_copiedOpt {size : ℕ} {message : String} : FailsWell (m.copiedOpt env size message v) := by
  unfold copiedOpt
  split_ifs
  · exact failsWell_copied.map _
  · exact failsWell_ok

theorem failsWell_policyArg : FailsWell (m.policyArg env v) := by
  unfold policyArg
  repeat' split
  · exact failsWell_ok
  · exact failsWell_paramErr
  · exact failsWell_ok

theorem failsWell_hostArg : FailsWell (hostArg env v) := by
  unfold hostArg
  split
  · exact failsWell_ok
  · exact failsWell_paramErr

theorem failsWell_compileArg : FailsWell (compileArg env v) := by
  unfold compileArg
  repeat' split
  · exact failsWell_ok
  · exact failsWell_paramErr
  · exact failsWell_ok

theorem failsWell_contextArg : FailsWell (contextArg env v) := by
  unfold contextArg
  repeat' split
  · exact failsWell_ok
  · exact failsWell_paramErr
  · exact failsWell_ok

theorem failsWell_contentArg : FailsWell (contentArg env path) := by
  unfold contentArg
  cases env.file path with
  | unseekable rv => exact failsWell_errClient
  | content bytes => exact failsWell_ok
  | _ => exact failsWell_err

theorem failsWell_filenameArg : FailsWell (filenameArg env path) := by
  unfold filenameArg
  cases env.basename path with
  | none => exact failsWell_err
  | some name =>
    dsimp only
    split_ifs
    · exact failsWell_err
    · exact failsWell_ok

/-- A command that is not prepared has an error. -/
theorem failsWell_prepare (info : List JsValue) : FailsWell (m.prepare env info) := by
  have hreturn : ∀ {v : JsValue} {f : Option P → MethodCmd P X C},
      FailsWell (m.policyArg env v >>= fun policy => pure (f policy)) := fun {_ _} =>
    failsWell_policyArg.bind fun _ => failsWell_ok
  cases m with
  | indexCreate =>
    refine failsWell_copied.bind fun _ => failsWell_copiedOpt.bind fun _ => failsWell_copiedOpt.bind fun _ => ?_
    exact failsWell_compileArg.bind fun _ => failsWell_contextArg.bind fun _ => hreturn
  | indexRemove => exact failsWell_copied.bind fun _ => hreturn
  | infoHost => exact (failsWell_copiedOpt.map _).bind fun _ => failsWell_hostArg.bind fun _ => hreturn
  | infoAny | infoForeach | infoNode => exact (failsWell_copiedOpt.map _).bind fun _ => hreturn
  | jobInfo | udfRemove => exact hreturn
  | truncate => exact failsWell_copied.bind fun _ => failsWell_copiedOpt.bind fun _ => hreturn
  | udfRegister => exact failsWell_contentArg.bind fun _ => failsWell_filenameArg.bind fun _ => hreturn

end

/-! ### What is asked for -/

/-- The bytes are the text that is given. -/
def TextIs (v : JsValue) (bs : Bytes) : Prop := ∃ s, v = .str s ∧ Utf8Of bs s

/-- The bytes are the text that is given, or empty if there is none. -/
def OptTextIs (v : JsValue) (bs : Bytes) : Prop := if v.isString then TextIs v bs else bs = []

/-- The set that is given; one that is left out is the empty one, which stands for all sets of the namespace. -/
def SetIs (v : JsValue) (set : Option Bytes) : Prop := ∃ bs, set = some bs ∧ OptTextIs v bs

def IntIs (v : JsValue) (i : ℤ) : Prop := ∃ n, v = .num n ∧ n.Is i

def PolicyIs (v : JsValue) (policy : Option P) : Prop := if v.isObject then policy = env.infopolicy v else policy = none

/-- The index is over the expression if there is one, else over the bin, in the context that is given. -/
def SourceIs (bin exp context : JsValue) (source : Option (IndexSource X C)) : Prop :=
  if exp.isArray then ∃ x, env.compile exp = some (some x) ∧ source = some (.exp x)
  else ∃ name c, source = some (.bin name (some c)) ∧ TextIs bin name ∧ context.isObject = true ∧
    env.context context = some c

/-- The address is a C string with the text that is given. -/
def HostIs (v : JsValue) (addr : Bytes) (port : UInt16) : Prop :=
  (∃ s, v.field "addr" = .str s ∧ Spells addr s) ∧ IntIs (v.field "port") port.toNat

/-- A command asks for what the arguments ask for. -/
def Says (info : List JsValue) (cmd : MethodCmd P X C) : Prop :=
  let info i := info.getD i .undefined
  match cmd with
  | .indexCreate policy ns set source index itype dtype =>
    TextIs (info 0) ns ∧ SetIs (info 1) set ∧ SourceIs env (info 2) (info 3) (info 7) source ∧ TextIs (info 4) index ∧
      IntIs (info 5) itype.toInt ∧ IntIs (info 6) dtype.toInt ∧ PolicyIs env (info 8) policy
  | .indexRemove policy ns index => TextIs (info 0) ns ∧ TextIs (info 1) index ∧ PolicyIs env (info 2) policy
  | .infoAny policy request | .infoForeach policy request => OptTextIs (info 0) request ∧ PolicyIs env (info 1) policy
  | .infoHost policy addr port request =>
    OptTextIs (info 0) request ∧ HostIs (info 1) addr port ∧ PolicyIs env (info 2) policy
  | .infoNode policy node request => OptTextIs (info 0) request ∧ TextIs (info 1) node ∧ PolicyIs env (info 2) policy
  | .jobInfo policy module jobId =>
    IntIs (info 0) jobId.toNat ∧ TextIs (info 1) module ∧ PolicyIs env (info 2) policy
  | .truncate policy ns set beforeNanos =>
    TextIs (info 0) ns ∧ SetIs (info 1) set ∧ IntIs (info 2) beforeNanos.toNat ∧ PolicyIs env (info 3) policy
  | .udfRegister policy filename type content =>
    TextIs (info 0) (cString (info 0)) ∧ env.file (cString (info 0)) = .content content ∧
      env.basename (cString (info 0)) = some filename ∧ (isNumber (info 1) = true → IntIs (info 1) type.toInt) ∧
      PolicyIs env (info 2) policy
  | .udfRemove policy module => TextIs (info 0) module ∧ PolicyIs env (info 1) policy

/-- A text that a `char *` holds. -/
def Held (v : JsValue) : Prop := ∃ s, v = .str s ∧ s.Clean

/-- A text that a buffer of this size holds. -/
def Fits (size : ℕ) (v : JsValue) : Prop := ∃ s, v = .str s ∧ s.Clean ∧ s.utf8.length < size

def OptFits (size : ℕ) (v : JsValue) : Prop := v.isString = true → Fits size v

/-- A host whose name has only ASCII characters, 49 at most. -/
def HostFits (v : JsValue) : Prop :=
  (∃ s, v.field "addr" = .str s ∧ s.Clean ∧ s.utf8.length ≤ s.length ∧ s.utf8.length < HOST_ADDRESS_SIZE) ∧
    ∃ n, v.field "port" = .num n ∧ PortFits n

def Int32Fits (v : JsValue) : Prop := ∃ i : Int32, IntIs v i.toInt

/-- An integer from 0 to `2^63 - 1`. -/
def NatFits (v : JsValue) : Prop := ∃ k : ℕ, k < 2 ^ 63 ∧ IntIs v k

def PolicyFits (v : JsValue) : Prop := v.isObject = true → (env.infopolicy v).isSome = true

/-- An expression that compiles, with a bin and a context that are accepted; or a bin and a context. -/
def SourceFits (bin exp context : JsValue) : Prop :=
  if exp.isArray then
    (∃ x, env.compile exp = some (some x)) ∧ (∀ s, bin = .str s → (nativeStr s).length ≤ AS_BIN_NAME_MAX_LEN) ∧
      (context.isObject = true → (env.context context).isSome = true)
  else Fits AS_BIN_NAME_MAX_LEN bin ∧ context.isObject = true ∧ (env.context context).isSome = true

/-- The arguments that come through. -/
def ArgsFit (m : WorkerMethod) (info : List JsValue) : Prop :=
  let info i := info.getD i .undefined
  match m with
  | indexCreate =>
    Fits AS_NAMESPACE_MAX_SIZE (info 0) ∧ Fits AS_SET_MAX_SIZE (info 1) ∧ SourceFits env (info 2) (info 3) (info 7) ∧
      Held (info 4) ∧ Int32Fits (info 5) ∧ Int32Fits (info 6) ∧ PolicyFits env (info 8)
  | indexRemove => Fits AS_NAMESPACE_MAX_SIZE (info 0) ∧ Held (info 1) ∧ PolicyFits env (info 2)
  | infoAny => OptFits MAX_INFO_REQUEST_LEN (info 0) ∧ PolicyFits env (info 1)
  | infoForeach => OptFits INFO_REQUEST_LEN (info 0) ∧ PolicyFits env (info 1)
  | infoHost => OptFits MAX_INFO_REQUEST_LEN (info 0) ∧ HostFits (info 1) ∧ PolicyFits env (info 2)
  | infoNode => OptFits MAX_INFO_REQUEST_LEN (info 0) ∧ Fits AS_NODE_NAME_SIZE (info 1) ∧ PolicyFits env (info 2)
  | jobInfo => NatFits (info 0) ∧ Held (info 1) ∧ PolicyFits env (info 2)
  | truncate => Fits AS_NAMESPACE_MAX_SIZE (info 0) ∧ Fits AS_SET_MAX_SIZE (info 1) ∧ NatFits (info 2) ∧
    PolicyFits env (info 3)
  | udfRegister =>
    Held (info 0) ∧ (∃ content, env.file (cString (info 0)) = .content content) ∧
      (∃ name, env.basename (cString (info 0)) = some name ∧ name.length < MAX_FILENAME_LEN) ∧
      (isNumber (info 1) = true → Int32Fits (info 1)) ∧ PolicyFits env (info 2)
  | udfRemove => Held (info 0) ∧ PolicyFits env (info 1)

/-! ### One argument -/

section
variable {env} {m : WorkerMethod} {size : ℕ} {message : String} {v : JsValue}

theorem textIs_cString : TextIs v (cString v) ↔ Held v := by
  cases v with
  | str s => simp [TextIs, Held, cString, utf8Of_nativeStr]
  | _ => simp [TextIs, Held]

theorem copied_eq_ok {s : JsString} {bs : Bytes} : m.copied env size message (.str s) = .ok bs ↔
    (nativeStr s).length ≤ size ∧ bs = (strlcpy (nativeStr s) size).1 := by
  show (if size < (nativeStr s).length then .error (m.paramErr env message)
    else .ok (strlcpy (nativeStr s) size).1) = Except.ok bs ↔ _
  split_ifs with h
  · simp [h]
  · simp [Nat.le_of_not_lt h, eq_comm]

theorem copied_asked (env : MethodEnv P X C) (m : WorkerMethod) (message : String) (hsize : 0 < size) :
    (∃ bs, m.copied env size message v = .ok bs ∧ TextIs v bs) ↔ Fits size v := by
  cases v with
  | str s =>
    simp only [TextIs, Fits, JsValue.str.injEq, exists_eq_left', copied_eq_ok]
    constructor
    · rintro ⟨bs, ⟨-, rfl⟩, htext⟩
      exact (utf8Of_strlcpy hsize).mp htext
    · rintro ⟨hc, hlt⟩
      have hlen : (nativeStr s).length ≤ size := length_nativeStr_le.trans hlt.le
      exact ⟨_, ⟨hlen, rfl⟩, (utf8Of_strlcpy hsize).mpr ⟨hc, hlt⟩⟩
  | _ => simp [TextIs, Fits]

theorem isString_of_text {bs : Bytes} (h : TextIs v bs) : v.isString = true := by
  obtain ⟨s, rfl, -⟩ := h
  rfl

theorem isString_of_fits (h : Fits size v) : v.isString = true := by
  obtain ⟨s, rfl, -⟩ := h
  rfl

/-- A set that is left out is one that nothing has written to. -/
theorem setArg_asked : (∃ set, m.setArg env v = .ok set ∧ SetIs v set) ↔ Fits AS_SET_MAX_SIZE v := by
  unfold setArg copiedOpt SetIs OptTextIs
  cases h : v.isString with
  | true =>
    simp only [if_true]
    refine Iff.trans ?_ (copied_asked env m "Set exceeds max. length (64)" (by decide))
    constructor
    · rintro ⟨set, hset, bs, rfl, htext⟩
      obtain ⟨_, hcopy, hbs⟩ := Except.map_eq_ok.mp hset
      obtain rfl := Option.some_injective _ hbs
      exact ⟨_, hcopy, htext⟩
    · rintro ⟨bs, hcopy, htext⟩
      exact ⟨some bs, Except.map_eq_ok.mpr ⟨bs, hcopy, rfl⟩, bs, rfl, htext⟩
  | false =>
    refine iff_of_false ?_ fun hfits => ?_
    · rintro ⟨set, hset, bs, rfl, -⟩
      cases hset
    · rw [isString_of_fits hfits] at h
      cases h

theorem requestArg_asked (hsize : 0 < size) :
    (∃ request, m.requestArg env size message v = .ok request ∧ OptTextIs v request) ↔ OptFits size v := by
  unfold requestArg copiedOpt OptTextIs OptFits
  cases v.isString with
  | true =>
    simp only [if_true, forall_const]
    refine Iff.trans ?_ (copied_asked env m message hsize)
    constructor
    · rintro ⟨request, h, htext⟩
      obtain ⟨copy, hcopy, rfl⟩ := Except.map_eq_ok.mp h
      obtain ⟨bs, hbs, rfl⟩ := Except.map_eq_ok.mp hcopy
      exact ⟨bs, hbs, htext⟩
    · rintro ⟨bs, hcopy, htext⟩
      exact ⟨bs, Except.map_eq_ok.mpr ⟨some bs, Except.map_eq_ok.mpr ⟨bs, hcopy, rfl⟩, rfl⟩, htext⟩
  | false => exact iff_of_true ⟨[], rfl, rfl⟩ nofun

theorem policyArg_asked : (∃ policy, m.policyArg env v = .ok policy ∧ PolicyIs env v policy) ↔ PolicyFits env v := by
  unfold policyArg PolicyIs PolicyFits
  cases v.isObject with
  | true => cases env.infopolicy v <;> simp
  | false => simp

theorem intArg_asked : IntIs v (intArg v).toInt ↔ Int32Fits v := by
  cases v with
  | num n => simpa [IntIs, Int32Fits, intArg] using JsNumber.is_toInt32
  | _ => simp [IntIs, Int32Fits]

theorem uint64Arg_asked : IntIs v (uint64Arg v).toNat ↔ NatFits v := by
  constructor
  · rintro ⟨n, rfl, hn⟩
    refine ⟨(uint64Arg (.num n)).toNat, ?_, n, rfl, hn⟩
    by_contra hlarge
    have hsat : JsNumber.satInt64 (uint64Arg (.num n)).toNat = 2 ^ 63 - 1 := by
      unfold JsNumber.satInt64
      omega
    have hmax : uint64Arg (.num n) = (Int64.ofInt (2 ^ 63 - 1)).toUInt64 := by
      rw [← hsat, ← hn.toInt64_eq]
      rfl
    rw [hmax] at hlarge
    exact hlarge (by decide)
  · rintro ⟨k, hk, n, rfl, hn⟩
    have hsat : JsNumber.satInt64 k = k := by
      unfold JsNumber.satInt64
      omega
    have harg : (uint64Arg (.num n)).toNat = k := by
      show (n.toInt64).toBitVec.toNat = k
      rw [hn.toInt64_eq, hsat, Int64.toBitVec_ofInt, BitVec.toNat_ofInt]
      omega
    exact ⟨n, rfl, by rw [harg]; exact hn⟩

theorem spells_addr {s : JsString} : Spells ((hostAddr s).buffers.flatMap Buffer.written) s ↔
    s.Clean ∧ s.utf8.length ≤ s.length ∧ s.utf8.length < HOST_ADDRESS_SIZE := by
  have hbuffer : (hostAddr s).buffers.flatMap Buffer.written = strncpy (nativeStr s)
      (if s.length + 1 < HOST_ADDRESS_SIZE then s.length + 1 else HOST_ADDRESS_SIZE) := List.append_nil _
  have hholds : (Buffer.mk HOST_ADDRESS_SIZE (strncpy (nativeStr s)
      (if s.length + 1 < HOST_ADDRESS_SIZE then s.length + 1 else HOST_ADDRESS_SIZE))).Holds s ↔ _ := holds_strncpy
  rw [hbuffer]
  constructor
  · rintro ⟨hz, hw, ht⟩
    obtain ⟨h0, hlt⟩ := hholds.mp ⟨hz, ht⟩
    refine ⟨⟨hw, h0⟩, ?_⟩
    split_ifs at hlt <;> omega
  · rintro ⟨⟨hw, h0⟩, hle, hlt⟩
    obtain ⟨hz, ht⟩ := hholds.mpr ⟨h0, by split_ifs <;> omega⟩
    exact ⟨hz, hw, ht⟩

theorem hostArg_asked : (∃ host, hostArg env v = .ok host ∧ HostIs v host.1 host.2) ↔ HostFits v := by
  unfold hostArg hostFromJsobject HostFits HostIs IntIs
  cases v.field "addr" with
  | str s =>
    cases v.field "port" with
    | num n => simp [spells_addr, is_narrowPort]
    | _ => simp
  | _ => simp

/-- `snprintf` cuts the name of a node off. -/
theorem nodeName_asked : TextIs v ((cString v).take (AS_NODE_NAME_SIZE - 1)) ↔ Fits AS_NODE_NAME_SIZE v := by
  cases v with
  | str s =>
    simp only [TextIs, Fits, cString, JsValue.str.injEq, exists_eq_left', Utf8Of, take_nativeStr, FitsIn,
      JsString.Clean, and_assoc]
    exact and_congr_right fun _ => and_congr_right fun _ => Nat.lt_succ_iff.symm
  | _ => simp [TextIs, Fits]

theorem contentArg_asked {path : Bytes} :
    (∃ content, contentArg env path = .ok content ∧ env.file path = .content content) ↔
    ∃ content, env.file path = .content content := by
  unfold contentArg
  cases env.file path <;> simp

theorem filenameArg_asked {path : Bytes} :
    (∃ filename, filenameArg env path = .ok filename ∧ env.basename path = some filename) ↔
      ∃ name, env.basename path = some name ∧ name.length < MAX_FILENAME_LEN := by
  unfold filenameArg
  cases env.basename path with
  | none => simp
  | some name =>
    have hlen : (strlcpy name MAX_FILENAME_LEN).2 = name.length := rfl
    have hcopy : (strlcpy name MAX_FILENAME_LEN).1 = name.take (MAX_FILENAME_LEN - 1) := strlcpy_fst (by decide) name
    simp only [hlen, hcopy, Option.some.injEq, exists_eq_left']
    constructor
    · rintro ⟨filename, h, rfl⟩
      split_ifs at h
      have hself := congrArg List.length (Except.ok.inj h)
      rw [List.length_take] at hself
      unfold MAX_FILENAME_LEN at hself ⊢
      omega
    · intro h
      exact ⟨name, by rw [if_neg (Nat.not_lt.mpr h.le), List.take_of_length_le (Nat.le_sub_one_of_lt h)], rfl⟩

theorem udfType_asked : (isNumber v = true → IntIs v (udfType v).toInt) ↔ (isNumber v = true → Int32Fits v) :=
  forall_congr' fun h => by rw [udfType, if_pos h, intArg_asked]

theorem copiedOpt_accepts (env : MethodEnv P X C) (m : WorkerMethod) (message : String) :
    (∃ bs, m.copiedOpt env size message v = .ok bs) ↔
    ∀ s, v = .str s → (nativeStr s).length ≤ size := by
  cases v with
  | str s => simp [copiedOpt, JsValue.isString, Except.map_eq_ok, copied_eq_ok]
  | _ => simp [copiedOpt, JsValue.isString]

theorem contextArg_accepts : (∃ c, contextArg env v = .ok c) ↔ (v.isObject = true → (env.context v).isSome = true) := by
  unfold contextArg
  cases v.isObject with
  | true => cases env.context v <;> simp
  | false => simp

theorem contextArg_asked : (∃ c, contextArg env v = .ok (some c) ∧ v.isObject = true ∧ env.context v = some c) ↔
    v.isObject = true ∧ (env.context v).isSome = true := by
  unfold contextArg
  cases v.isObject with
  | true => cases env.context v <;> simp
  | false => simp

theorem source_asked {bin exp context : JsValue} :
    (∃ name, indexCreate.copiedOpt env AS_BIN_NAME_MAX_LEN message bin = .ok name ∧ ∃ x, compileArg env exp = .ok x ∧
      ∃ c, contextArg env context = .ok c ∧ SourceIs env bin exp context (indexSource x name c)) ↔
      SourceFits env bin exp context := by
  unfold SourceIs SourceFits compileArg
  cases hexp : exp.isArray with
  | true =>
    simp only [if_true]
    rw [← copiedOpt_accepts env indexCreate message, ← contextArg_accepts]
    constructor
    · rintro ⟨name, hname, x, hx, c, hc, y, hy, hsource⟩
      exact ⟨⟨y, hy⟩, ⟨name, hname⟩, c, hc⟩
    · rintro ⟨⟨x, hx⟩, ⟨name, hname⟩, c, hc⟩
      exact ⟨name, hname, some x, by rw [hx], c, hc, x, hx, rfl⟩
  | false =>
    simp only [Bool.false_eq_true, if_false]
    rw [← copied_asked env indexCreate message (by decide), ← contextArg_asked]
    constructor
    · rintro ⟨name, hname, x, hx, c, hc, bs, ctx, hsource, htext, hctx⟩
      obtain rfl := Except.ok.inj hx
      obtain ⟨bs', rfl, hpair⟩ := Option.map_eq_some_iff.mp hsource
      obtain ⟨rfl, rfl⟩ := IndexSource.bin.inj hpair
      rw [copiedOpt, isString_of_text htext, if_pos rfl] at hname
      obtain ⟨copy, hcopy, hsome⟩ := Except.map_eq_ok.mp hname
      obtain rfl := Option.some_injective _ hsome
      exact ⟨⟨_, hcopy, htext⟩, ctx, hc, hctx⟩
    · rintro ⟨⟨bs, hcopy, htext⟩, ctx, hc, hctx⟩
      refine ⟨some bs, ?_, none, rfl, some ctx, hc, bs, ctx, rfl, htext, hctx⟩
      rw [copiedOpt, isString_of_text htext, if_pos rfl, hcopy]
      rfl

end

/-! ### The methods -/

/-- A `prepare` that goes through is one whose conversions do. -/
theorem exists_bind {α β : Type} {x : Except AsError α} {f : α → Except AsError β} {p : β → Prop} :
    (∃ b, (x >>= f) = .ok b ∧ p b) ↔ ∃ a, x = .ok a ∧ ∃ b, f a = .ok b ∧ p b := by
  simp only [Except.bind_eq_ok]
  exact ⟨fun ⟨b, ⟨a, ha, hb⟩, hp⟩ => ⟨a, ha, b, hb, hp⟩, fun ⟨a, ha, b, hb, hp⟩ => ⟨b, ⟨a, ha, hb⟩, hp⟩⟩

theorem exists_pure {β : Type} {b : β} {p : β → Prop} :
    (∃ b', (pure b : Except AsError β) = .ok b' ∧ p b') ↔ p b := by
  simp [pure, Except.pure]

section
variable {α : Type} {p q : α → Prop} {b : Prop}

theorem exists_left_comm : (∃ a, p a ∧ b ∧ q a) ↔ b ∧ ∃ a, p a ∧ q a := by
  simp only [and_left_comm, exists_and_left]

theorem exists_assoc : (∃ a, p a ∧ q a ∧ b) ↔ (∃ a, p a ∧ q a) ∧ b := by
  simp only [← and_assoc, exists_and_right]

end

theorem nsArg_asked {m : WorkerMethod} {v : JsValue} :
    (∃ ns, m.nsArg env v = .ok ns ∧ TextIs v ns) ↔ Fits AS_NAMESPACE_MAX_SIZE v :=
  copied_asked env m _ (by decide)

/-- The commands that are prepared, by what their arguments ask for. -/
theorem prepare_asked (m : WorkerMethod) (info : List JsValue) :
    (∃ cmd, m.prepare env info = .ok cmd ∧ Says env info cmd) ↔ ArgsFit env m info := by
  have hany : 0 < MAX_INFO_REQUEST_LEN := by decide
  have hforeach : 0 < INFO_REQUEST_LEN := by decide
  cases m with
  | indexCreate =>
    simp only [prepare, exists_bind, exists_pure, Says, ArgsFit, exists_left_comm, exists_assoc, nsArg_asked,
      setArg_asked, source_asked, textIs_cString, intArg_asked, policyArg_asked]
  | infoHost =>
    simp only [prepare, exists_bind, exists_pure, Says, ArgsFit, exists_left_comm, exists_assoc, requestArg_asked hany,
      hostArg_asked, policyArg_asked]
  | infoNode =>
    simp only [prepare, exists_bind, exists_pure, Says, ArgsFit, exists_left_comm, exists_assoc, requestArg_asked hany,
      nodeName_asked, policyArg_asked]
  | udfRegister =>
    simp only [prepare, exists_bind, exists_pure, Says, ArgsFit, exists_left_comm, exists_assoc, textIs_cString,
      contentArg_asked, filenameArg_asked, udfType_asked, policyArg_asked]
  | _ =>
    simp only [prepare, exists_bind, exists_pure, Says, ArgsFit, exists_left_comm, exists_assoc, nsArg_asked,
      setArg_asked, textIs_cString, uint64Arg_asked, policyArg_asked, requestArg_asked hany, requestArg_asked hforeach]

/-- Without a set, `truncate` is not sure to delete all sets of the namespace. -/
theorem truncate_needs_set {info : List JsValue} (h : (info.getD 1 .undefined).isString = false) :
    ¬∃ cmd, truncate.prepare env info = .ok cmd ∧ Says env info cmd := by
  rw [prepare_asked]
  rintro ⟨-, hset, -⟩
  rw [isString_of_fits hset] at h
  cases h

/-- A method hands a command to a worker that asks for what the arguments ask for exactly if these pass its type
checks, the texts are ones that a `char *` holds and are shorter than their buffers, the numbers have their types, the
conversions succeed, and a set is given where there may be one. -/
theorem prepare_says_iff (m : WorkerMethod) (info : List JsValue) :
    (m.accepts info = true ∧ ∃ cmd, m.prepare env info = .ok cmd ∧ Says env info cmd) ↔
      m.accepts info = true ∧ ArgsFit env m info :=
  and_congr_right fun _ => prepare_asked env m info

end WorkerMethod

end AerospikeNode
