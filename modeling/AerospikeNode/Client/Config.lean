import AerospikeNode.Admin.Arrays
import AerospikeNode.Client.Hosts
import AerospikeNode.Js.NumText
import AerospikeNode.Ops.Builders
import AerospikeNode.Policy.Defaults

/-!
# The configuration

The options of a client, as the class `Config` of `lib/config.js` keeps them and as `config_from_jsobject`
(`src/main/config.cc`) reads what it keeps into the configuration of the C client. The class drops a value of the
wrong type where it looks at the type at all; the function rejects one, and cuts the numbers to 32 bits.

`newClient_configured_iff`: for which options there is a client, with the settings that they give.
-/

namespace AerospikeNode

/-! ### The class -/

/-- The options, and the properties of a `Config`. -/
inductive ConfigProp where
  | user | password | authMode | clusterName | port | tls | hosts | policies | log | connTimeoutMs | loginTimeoutMs
  | maxSocketIdle | tenderInterval | maxConnsPerNode | maxErrorRate | errorRateWindow | minConnsPerNode | modlua
  | sharedMemory | useAlternateAccessAddress | rackAware | rackId | rackIds | configProvider | appId
  | maxConnsPerNodeSync | minConnsPerNodeSync
deriving DecidableEq

namespace ConfigProp

/-- What the constructor of `Config` sets, in its order. -/
def assigned : List ConfigProp :=
  [user, password, authMode, clusterName, port, tls, hosts, policies, log, connTimeoutMs, loginTimeoutMs,
    maxSocketIdle, tenderInterval, maxConnsPerNode, maxErrorRate, errorRateWindow, minConnsPerNode, modlua,
    sharedMemory, useAlternateAccessAddress, rackAware, rackId, rackIds, configProvider, appId]

def name : ConfigProp → String
  | user => "user"
  | password => "password"
  | authMode => "authMode"
  | clusterName => "clusterName"
  | port => "port"
  | tls => "tls"
  | hosts => "hosts"
  | policies => "policies"
  | log => "log"
  | connTimeoutMs => "connTimeoutMs"
  | loginTimeoutMs => "loginTimeoutMs"
  | maxSocketIdle => "maxSocketIdle"
  | tenderInterval => "tenderInterval"
  | maxConnsPerNode => "maxConnsPerNode"
  | maxErrorRate => "maxErrorRate"
  | errorRateWindow => "errorRateWindow"
  | minConnsPerNode => "minConnsPerNode"
  | modlua => "modlua"
  | sharedMemory => "sharedMemory"
  | useAlternateAccessAddress => "useAlternateAccessAddress"
  | rackAware => "rackAware"
  | rackId => "rackId"
  | rackIds => "rackIds"
  | configProvider => "configProvider"
  | appId => "appId"
  | maxConnsPerNodeSync => "maxConnsPerNodeSync"
  | minConnsPerNodeSync => "minConnsPerNodeSync"

end ConfigProp

/-- A property of the options or of a `Config`. -/
def JsValue.prop (v : JsValue) (p : ConfigProp) : JsValue := v.field p.name

/-- `Number.isInteger(v)` -/
def JsValue.isInteger : JsValue → Bool
  | num n => n.isInteger
  | _ => false

/-- The own enumerable properties of an object. -/
def JsValue.ownProps : JsValue → Props
  | obj _ ps => ps
  | array xs => indexed xs
  | buffer bs => indexed (bs.map byte)
  | _ => []

namespace Config

/-- The policies of the options. -/
def policyProps (config : JsValue) : Props :=
  if (config.prop .policies).typeofObject then (config.prop .policies).ownProps else []

/-- `config.hosts`, or the environment variable, or the port of this machine. -/
def hosts (environment : Option JsString) (config : JsValue) : JsValue :=
  if (config.prop .hosts).truthy then config.prop .hosts
  else match environment with
    | some (u :: us) => .str (u :: us)
    | _ => .str (JsString.lit "localhost:" ++ JsString.ofChars (configPort (config.prop .port)).toChars)

/-- What the constructor sets a property to, if it does. -/
def keep (environment : Option JsString) (policies : Props) (config : JsValue) (p : ConfigProp) : Option JsValue :=
  let v := config.prop p
  match p with
  | .user | .password => if v.isString then some v else none
  | .authMode => if isNumber v then some v else none
  | .clusterName | .rackAware | .rackIds | .configProvider | .appId => some v
  | .port => some (.num (configPort v))
  | .tls | .log | .sharedMemory => if v.typeofObject then some v else none
  | .hosts => some (hosts environment config)
  | .policies => some (.plain policies)
  | .connTimeoutMs | .loginTimeoutMs | .maxSocketIdle | .tenderInterval | .maxConnsPerNode | .maxErrorRate
  | .errorRateWindow | .minConnsPerNode | .rackId => if v.isInteger then some v else none
  | .modlua => if v.typeofObject then some (.plain v.ownProps) else none
  | .useAlternateAccessAddress => some (.bool v.truthy)
  | .maxConnsPerNodeSync | .minConnsPerNodeSync => none

/-- The object with these policies. -/
def object (environment : Option JsString) (policies : Props) (config : JsValue) : JsValue :=
  .obj ⟨JsString.lit "Config", none⟩ (ConfigProp.assigned.filterMap fun p =>
    (keep environment policies config p).map fun v => (JsString.lit p.name, v))

/-- `new Config(config)`, with `process.env.AEROSPIKE_HOSTS`; `none` if it throws. -/
def new (environment : Option JsString) (config : JsValue) : Option JsValue :=
  let config := if config.truthy then config else .plain []
  (setDefaultPolicies (policyProps config)).map fun policies => object environment policies config

end Config

/-! ### The configuration of the C client -/

/-- Where a property is read: of the configuration, or of an object in it. -/
inductive ConfigSource where
  | top (p : ConfigProp)
  | inside (p : ConfigProp) (name : String)

/-- What is read there; of a value that is no object, nothing. -/
def ConfigSource.find (config : JsValue) : ConfigSource → JsValue
  | top p => config.prop p
  | inside p name => if (config.prop p).isObject then (config.prop p).field name else .undefined

/-- The settings that one property each is read for. -/
inductive PlainSetting where
  | providerPath | providerInterval | clusterName | authMode | cafile | capath | protocols | cipherSuite | certBlacklist
  | keyfile | keyfilePassword | certfile | crlCheck | crlCheckAll | logSessionInfo | forLoginOnly | userPath
  | shmKey | shmMaxNodes | shmMaxNamespaces | shmTakeoverThreshold | connTimeoutMs | loginTimeoutMs | maxSocketIdle
  | tenderInterval | maxConnsPerNode | maxErrorRate | errorRateWindow | minConnsPerNode | maxConnsPerNodeSync
  | minConnsPerNodeSync | useServicesAlternate | rackAware | rackId | appId
deriving DecidableEq

namespace PlainSetting

def source : PlainSetting → ConfigSource
  | providerPath => .inside .configProvider "path"
  | providerInterval => .inside .configProvider "interval"
  | clusterName => .top .clusterName
  | authMode => .top .authMode
  | cafile => .inside .tls "cafile"
  | capath => .inside .tls "capath"
  | protocols => .inside .tls "protocols"
  | cipherSuite => .inside .tls "cipherSuite"
  | certBlacklist => .inside .tls "certBlacklist"
  | keyfile => .inside .tls "keyfile"
  | keyfilePassword => .inside .tls "keyfilePassword"
  | certfile => .inside .tls "certfile"
  | crlCheck => .inside .tls "crlCheck"
  | crlCheckAll => .inside .tls "crlCheckAll"
  | logSessionInfo => .inside .tls "logSessionInfo"
  | forLoginOnly => .inside .tls "forLoginOnly"
  | userPath => .inside .modlua "userPath"
  | shmKey => .inside .sharedMemory "key"
  | shmMaxNodes => .inside .sharedMemory "maxNodes"
  | shmMaxNamespaces => .inside .sharedMemory "maxNamespaces"
  | shmTakeoverThreshold => .inside .sharedMemory "takeoverThresholdSeconds"
  | connTimeoutMs => .top .connTimeoutMs
  | loginTimeoutMs => .top .loginTimeoutMs
  | maxSocketIdle => .top .maxSocketIdle
  | tenderInterval => .top .tenderInterval
  | maxConnsPerNode => .top .maxConnsPerNode
  | maxErrorRate => .top .maxErrorRate
  | errorRateWindow => .top .errorRateWindow
  | minConnsPerNode => .top .minConnsPerNode
  | maxConnsPerNodeSync => .top .maxConnsPerNodeSync
  | minConnsPerNodeSync => .top .minConnsPerNodeSync
  | useServicesAlternate => .top .useAlternateAccessAddress
  | rackAware => .top .rackAware
  | rackId => .top .rackId
  | appId => .top .appId

end PlainSetting

/-- The settings of the C client. -/
inductive Setting where
  | plain (p : PlainSetting)
  | hosts
  | tlsEnable
  | policy (slot : PolicySlot)
  | login
  | useShm
  | rackIds
deriving DecidableEq

/-- What a setting holds. -/
inductive SettingValue (E T : Type) where
  | text (bytes : Bytes)
  | flag (b : Bool)
  | word (w : UInt32)
  | int (i : Int32)
  | hosts (hosts : List NativeHost)
  | policy (values : PolicyClass.Values E T)
  | login (user password : Bytes)
  | racks (ids : List Int32)

/-- What `config_from_jsobject` calls: the policies' functions, with what the C client initialises a policy to;
`as_config_add_hosts`, which fails on a string that it cannot read; `as_config_set_user`, which takes a user and a
password or not; and the size of the array that a Lua path is copied to. -/
structure ConfigEnv (E T : Type) extends PolicyEnv E T where
  policyInit : PolicyClass → PolicyClass.Values E T
  addHosts : Bytes → UInt16 → Option (List NativeHost)
  setUser : Bytes → Bytes → Bool
  pathMaxSize : ℕ

section
variable {E T : Type} (env : ConfigEnv E T)

/-- The ways a property is read. -/
inductive SettingReader where
  | text
  | path
  | flag
  | word
  | int

/-- `get_optional_string_property` -/
def JsValue.optionalStringProperty : JsValue → Res (Option Bytes)
  | str s => .ok (some (nativeStr s))
  | undefined | null => .ok none
  | _ => .error .paramErr

def SettingReader.read (v : JsValue) : SettingReader → Res (Option (SettingValue E T))
  | text => v.optionalStringProperty.map (Option.map .text)
  | path => v.optionalStringProperty.map (Option.map fun bs => .text (bs.take (env.pathMaxSize - 1)))
  | flag => v.optionalBoolProperty.map (Option.map .flag)
  | word => v.optionalUint32Property.map (Option.map .word)
  | int => v.optionalIntProperty.map (Option.map .int)

def PlainSetting.reader : PlainSetting → SettingReader
  | providerPath | clusterName | cafile | capath | protocols | cipherSuite | certBlacklist | keyfile | keyfilePassword
  | certfile | appId => .text
  | userPath => .path
  | crlCheck | crlCheckAll | logSessionInfo | forLoginOnly | useServicesAlternate | rackAware => .flag
  | providerInterval | authMode | shmKey | shmMaxNodes | shmMaxNamespaces | shmTakeoverThreshold | connTimeoutMs
  | loginTimeoutMs | maxSocketIdle | tenderInterval | maxConnsPerNode | maxErrorRate | errorRateWindow
  | minConnsPerNode | maxConnsPerNodeSync | minConnsPerNodeSync => .word
  | rackId => .int

/-- The hosts that the C client reads in a string. -/
def hostsFromString (default : UInt32) (hosts : JsString) : Res (List NativeHost) :=
  match env.addHosts (nativeStr hosts) default.toUInt16 with
  | some hs => .ok hs
  | none => .error .paramErr

def readHosts (config : JsValue) : Res (List NativeHost) := do
  let default ← defaultPort (config.prop .port)
  match config.prop .hosts with
  | .str hosts => hostsFromString env default hosts
  | .array hosts => hostsFromArray default hosts
  | _ => .error .paramErr

/-- `enable` of an object that enables what it is about unless it says otherwise. -/
def readEnable (v : JsValue) : Res Bool := (v.field "enable").optionalBoolProperty.map fun b => b.getD true

/-- The TLS section, which is rejected if it is neither an object nor left out. -/
def readTls (tls : JsValue) : Res (Option Bool) :=
  if tls.isObject then (readEnable tls).map some
  else match tls with
    | .undefined => .ok none
    | _ => .error .paramErr

/-- The user, and then the password, which has to be there. -/
def readLogin (user password : JsValue) : Res (Option (Bytes × Bytes)) := do
  match ← user.optionalStringProperty with
  | some user =>
    let password ← password.stringProperty
    if env.setUser user password then return some (user, password) else .error .paramErr
  | none => return none

/-- `get_optional_rack_ids_property`, which adds the racks one by one: an empty array sets nothing. -/
def JsValue.optionalRackIdsProperty : JsValue → Res (Option (List Int32))
  | array ids => (ids.mapM JsValue.intProperty).map fun racks => if racks.isEmpty then none else some racks
  | undefined | null => .ok none
  | _ => .error .paramErr

def Setting.read (config : JsValue) : Setting → Res (Option (SettingValue E T))
  | plain p => p.reader.read env (p.source.find config)
  | hosts => (readHosts env config).map fun hs => some (.hosts hs)
  | tlsEnable => (readTls (config.prop .tls)).map (Option.map .flag)
  | policy slot =>
    if (config.prop .policies).isObject then
      (PolicySlot.readPolicy env.toPolicyEnv slot.cls env.policyInit ((config.prop .policies).field slot.name)).map
        (Option.map .policy)
    else .ok none
  | login => (readLogin env (config.prop .user) (config.prop .password)).map (Option.map fun l => .login l.1 l.2)
  | useShm =>
    if (config.prop .sharedMemory).isObject then (readEnable (config.prop .sharedMemory)).map fun b => some (.flag b)
    else .ok none
  | rackIds => (config.prop .rackIds).optionalRackIdsProperty.map (Option.map .racks)

/-- What `config_from_jsobject` reads, in its order. -/
def Setting.order : List Setting :=
  [.plain .providerPath, .plain .providerInterval, .plain .clusterName, .plain .authMode, hosts, tlsEnable,
    .plain .cafile, .plain .capath, .plain .protocols, .plain .cipherSuite, .plain .certBlacklist, .plain .keyfile,
    .plain .keyfilePassword, .plain .certfile, .plain .crlCheck, .plain .crlCheckAll, .plain .logSessionInfo,
    .plain .forLoginOnly] ++ PolicySlot.all.map .policy ++
  [.plain .userPath, .plain .authMode, login, useShm, .plain .shmKey, .plain .shmMaxNodes, .plain .shmMaxNamespaces,
    .plain .shmTakeoverThreshold, .plain .connTimeoutMs, .plain .loginTimeoutMs, .plain .maxSocketIdle,
    .plain .tenderInterval, .plain .maxConnsPerNode, .plain .maxErrorRate, .plain .errorRateWindow,
    .plain .minConnsPerNode, .plain .maxConnsPerNodeSync, .plain .minConnsPerNodeSync, .plain .useServicesAlternate,
    .plain .rackAware, .plain .rackId, rackIds, .plain .appId]

/-- `config_from_jsobject`, of a configuration that `as_config_init` has initialised. The second time it reads
`authMode` into an `int32_t`, of the same 32 bits. -/
def configFromJsobject (init : Setting → SettingValue E T) (config : JsValue) :
    (Setting → SettingValue E T) × Res Unit :=
  FieldRow.fill (Setting.order.map fun s => ⟨s, fun config => s.read env config⟩) config init

/-- The configuration of the C client, if it is accepted. -/
def configured (init : Setting → SettingValue E T) (config : JsValue) : Option (Setting → SettingValue E T) :=
  match configFromJsobject env init config with
  | (settings, .ok ()) => some settings
  | (_, .error _) => none

/-- The configuration of a new client; `none` if `new Client(options)` throws. -/
def newClient (environment : Option JsString) (init : Setting → SettingValue E T) (options : JsValue) :
    Option (Setting → SettingValue E T) :=
  (Config.new environment options).bind (configured env init)

end

/-! ### What the options give -/

section Holds
variable {E T : Type} (env : ConfigEnv E T) (environment : Option JsString) (init : Setting → SettingValue E T)
  (options : JsValue)

/-- The value is the one that is given. -/
def SettingReader.Says (v : JsValue) (x : SettingValue E T) : SettingReader → Prop
  | text | path => ∃ s bs, v = .str s ∧ x = .text bs ∧ Utf8Of bs s
  | flag => ∃ b, v = .bool b ∧ x = .flag b
  | word => ∃ n w, v = .num n ∧ x = .word w ∧ n.Is w.toNat
  | int => ∃ n i, v = .num n ∧ x = .int i ∧ n.Is i.toInt

/-- What a setting is if it is not given: what the C client starts from, but for `useAlternateAccessAddress`, of
which the documentation says `false`. -/
def PlainSetting.default (init : Setting → SettingValue E T) : PlainSetting → SettingValue E T
  | useServicesAlternate => .flag false
  | p => init (.plain p)

def PlainSetting.Holds (x : SettingValue E T) (p : PlainSetting) : Prop :=
  let v := p.source.find options
  v.isNullish = true ∧ x = p.default init ∨ p.reader.Says v x

/-- The port is a number, if it is given. -/
def PortGiven : Prop := (options.prop .port).isNullish = true ∨ ∃ n, options.prop .port = .num n

/-- The hosts of the array, or what the C client reads in the string, with the port that is given. -/
def HostsHold (hs : List NativeHost) : Prop :=
  PortGiven options ∧
    match Config.hosts environment options with
    | .str s => s.Clean ∧ ∃ port : UInt16, (configPort (options.prop .port)).Is port.toNat ∧
        env.addHosts s.utf8 port = some hs
    | .array hosts => List.Forall₂ (fun host h => ∃ e, ObjectGives (options.prop .port) host e ∧ h.Denotes e) hosts hs
    | _ => False

/-- An object enables what it is about, unless its `enable` says otherwise. -/
def EnableHolds (v : JsValue) (x : SettingValue E T) : Prop :=
  v.typeofObject = true ∧ v ≠ .null ∧ ((v.field "enable").isNullish = true ∧ x = .flag true ∨
    SettingReader.flag.Says (v.field "enable") x)

/-- The setting is as the options say. -/
def Setting.Holds (x : SettingValue E T) : Setting → Prop
  | plain p => p.Holds init options x
  | hosts => ∃ hs, x = .hosts hs ∧ HostsHold env environment options hs
  | tlsEnable => options.prop .tls = .undefined ∧ x = init tlsEnable ∨ EnableHolds (options.prop .tls) x
  | policy slot =>
    let values := Props.get (Config.policyProps options) (JsString.lit slot.name)
    values.isNullish = true ∧ x = init (policy slot) ∨ values.isNullish = false ∧
      ∃ policy, x = .policy policy ∧ slot.cls.Holds env.toPolicyEnv (env.policyInit slot.cls) values policy
  | login => (options.prop .user).isNullish = true ∧ x = init login ∨
      ∃ s t user password, options.prop .user = .str s ∧ options.prop .password = .str t ∧ x = .login user password ∧
        Utf8Of user s ∧ Utf8Of password t
  | useShm => (options.prop .sharedMemory).isNullish = true ∧ x = init useShm ∨
      EnableHolds (options.prop .sharedMemory) x
  | rackIds => ((options.prop .rackIds).isNullish = true ∨ options.prop .rackIds = .array []) ∧ x = init rackIds ∨
      ∃ ids racks, options.prop .rackIds = .array ids ∧ x = .racks racks ∧
        List.Forall₂ (fun id rack => ∃ n, id = .num n ∧ n.Is rack.toInt) ids racks

/-! ### The options that come through -/

/-- The values that arrive as they are. -/
def SettingReader.Fits (v : JsValue) : SettingReader → Prop
  | text => ∃ s, v = .str s ∧ s.Clean
  | path => ∃ s, v = .str s ∧ s.Clean ∧ s.utf8.length ≤ env.pathMaxSize - 1
  | flag => ∃ b, v = .bool b
  | word => ∃ n, v = .num n ∧ ∃ w : UInt32, n.Is w.toNat
  | int => ∃ n, v = .num n ∧ ∃ i : Int32, n.Is i.toInt

/-- The settings that `config_from_jsobject` reads and a `Config` has no property for. -/
def PlainSetting.missing : List PlainSetting := [maxConnsPerNodeSync, minConnsPerNodeSync]

/-- A setting that a `Config` has no property for is right if it is what the C client starts from. -/
def PlainSetting.Fits (p : PlainSetting) : Prop :=
  let v := p.source.find options
  v.isNullish = true ∨ if p ∈ missing then p.reader.Says v (init (.plain p)) else p.reader.Fits env v

/-- A port that is a number, or none; a string of hosts that the C client can read, with a port of 16 bits, or an
array of hosts that fit. -/
def HostsFit : Prop :=
  PortGiven options ∧
    match Config.hosts environment options with
    | .str s => s.Clean ∧ PortFits (configPort (options.prop .port)) ∧
        (env.addHosts s.utf8 (narrowPort (configPort (options.prop .port)))).isSome = true
    | .array hosts => ∀ host ∈ hosts, ObjectTyped host ∧ ObjectFits (options.prop .port) host
    | _ => False

def EnableFits (v : JsValue) : Prop :=
  v.typeofObject = true ∧ v ≠ .null ∧ ((v.field "enable").isNullish = true ∨ ∃ b, v.field "enable" = .bool b)

def Setting.Fits : Setting → Prop
  | plain p => p.Fits env init options
  | hosts => HostsFit env environment options
  | tlsEnable => options.prop .tls = .undefined ∨ EnableFits (options.prop .tls)
  | policy slot =>
    let values := Props.get (Config.policyProps options) (JsString.lit slot.name)
    values.isNullish = true ∨ slot.cls.Fits env.toPolicyEnv (env.policyInit slot.cls) values
  | login => (options.prop .user).isNullish = true ∨ ∃ s t, options.prop .user = .str s ∧
      options.prop .password = .str t ∧ s.Clean ∧ t.Clean ∧ env.setUser s.utf8 t.utf8 = true
  | useShm => (options.prop .sharedMemory).isNullish = true ∨ EnableFits (options.prop .sharedMemory)
  | rackIds => (options.prop .rackIds).isNullish = true ∨ ∃ ids, options.prop .rackIds = .array ids ∧
      ∀ id ∈ ids, ∃ n, id = .num n ∧ ∃ i : Int32, n.Is i.toInt

/-- The classes that `createPolicy` knows. -/
def IsPolicyType (type : JsString) : Prop :=
  (∃ t ∈ policyTypes, JsString.lit t.1 = type) ∨ ∃ t ∈ operationPolicyTypes, JsString.lit t.1 = type

/-- The policies have classes, and each setting comes through. -/
structure OptionsFit : Prop where
  policies : ∀ p ∈ Config.policyProps options, p.2.isNullish = true ∨ IsPolicyType p.1
  settings : ∀ s : Setting, s.Fits env environment init options

end Holds

/-! ### The properties of a `Config` -/

theorem ConfigProp.name_injective : Function.Injective ConfigProp.name := by
  intro p q h
  have hnodup : ((assigned ++ [maxConnsPerNodeSync, minConnsPerNodeSync]).map name).Nodup := by simp [assigned, name]
  refine List.inj_on_of_nodup_map hnodup ?_ ?_ h
  · cases p <;> simp [assigned]
  · cases q <;> simp [assigned]

/-- An object that is made of the properties of a list that there are. -/
theorem get_filterMap {α : Type} {name : α → String} (hname : Function.Injective name) {f : α → Option JsValue}
    {l : List α} {a : α} (h : a ∈ l ∨ f a = none) :
    Props.get (l.filterMap fun b => (f b).map fun v => (JsString.lit (name b), v)) (JsString.lit (name a)) =
      (f a).getD .undefined := by
  induction l with
  | nil =>
    have hnone : f a = none := by simpa using h
    rw [hnone]
    rfl
  | cons b l ih =>
    by_cases hba : b = a
    · subst hba
      cases hfb : f b with
      | some v => simp [hfb]
      | none =>
        rw [List.filterMap_cons_none (by rw [hfb]; rfl), ih (.inr hfb), hfb]
    · have htail : a ∈ l ∨ f a = none := h.imp_left fun hmem => List.mem_of_ne_of_mem (Ne.symm hba) hmem
      have hne : JsString.lit (name b) ≠ JsString.lit (name a) := fun heq => hba (hname (JsString.lit_inj.mp heq))
      cases hfb : f b with
      | none => rw [List.filterMap_cons_none (by rw [hfb]; rfl), ih htail]
      | some v =>
        rw [List.filterMap_cons_some (by rw [hfb]; rfl), Props.get_cons_ne hne, ih htail]

section New
variable {environment : Option JsString} {options : JsValue} {policies : Props}

theorem prop_orEmpty (options : JsValue) (p : ConfigProp) :
    (if options.truthy then options else .plain []).prop p = options.prop p := by
  cases h : options.truthy with
  | true => rfl
  | false =>
    cases options with
    | buffer bs => cases h
    | array xs => cases h
    | map es => cases h
    | obj cls ps => cases h
    | _ => rfl

theorem new_eq (environment : Option JsString) (options : JsValue) : Config.new environment options =
    (setDefaultPolicies (Config.policyProps options)).map fun policies =>
      Config.object environment policies options := by
  have hpolicies : Config.policyProps (if options.truthy then options else .plain []) = Config.policyProps options := by
    simp only [Config.policyProps, prop_orEmpty]
  have hobject : ∀ policies, Config.object environment policies (if options.truthy then options else .plain []) =
      Config.object environment policies options := by
    intro policies
    simp only [Config.object, Config.keep, Config.hosts, prop_orEmpty]
  simp only [Config.new, hpolicies, hobject]

/-- A property of a `Config`. -/
theorem prop_object (p : ConfigProp) : (Config.object environment policies options).prop p =
    (Config.keep environment policies options p).getD .undefined := by
  refine get_filterMap ConfigProp.name_injective ?_
  cases p <;> simp [ConfigProp.assigned, Config.keep]

/-- What a setting is read of, where the options have this value for it. -/
def PlainSetting.kept (v : JsValue) : PlainSetting → JsValue
  | authMode => if isNumber v then v else .undefined
  | connTimeoutMs | loginTimeoutMs | maxSocketIdle | tenderInterval | maxConnsPerNode | maxErrorRate
  | errorRateWindow | minConnsPerNode | rackId => if v.isInteger then v else .undefined
  | maxConnsPerNodeSync | minConnsPerNodeSync => .undefined
  | useServicesAlternate => .bool v.truthy
  | _ => v

/-- An index is no name with other characters than digits. -/
theorem get_indexed (xs : List JsValue) {name : String} {c : Char} (hc : c ∈ name.toList)
    (hdigit : isNumeric c = false) : Props.get (JsValue.indexed xs) (JsString.lit name) = .undefined := by
  have hfind : (JsValue.indexed xs).find? (fun p => p.1 == JsString.lit name) = none := by
    rw [List.find?_eq_none]
    intro p hp heq
    obtain ⟨i, hi, rfl⟩ := List.mem_mapIdx.mp hp
    have hchars : Nat.toDigits 10 i = name.toList := by
      have := congrArg JsString.codePoints (beq_iff_eq.mp heq)
      simpa [JsString.lit, JsString.codePoints_ofChars] using this
    rw [← hchars] at hc
    simp [isNumeric_digits hc] at hdigit
  simp [Props.get, hfind]

theorem getD_ite (b : Bool) (v : JsValue) :
    (if b then some v else none).getD .undefined = if b then v else .undefined := by
  cases b <;> rfl

theorem field_typeofObject (v : JsValue) (name : String) :
    (if (if v.typeofObject then v else .undefined).isObject then (if v.typeofObject then v else .undefined).field name
      else .undefined) = if v.isObject then v.field name else .undefined := by
  cases v <;> rfl

theorem field_assign (v : JsValue) :
    (if (if v.typeofObject then JsValue.plain v.ownProps else .undefined).isObject then
      (if v.typeofObject then JsValue.plain v.ownProps else .undefined).field "userPath" else .undefined) =
      if v.isObject then v.field "userPath" else .undefined := by
  have hindexed : ∀ xs, Props.get (JsValue.indexed xs) (JsString.lit "userPath") = .undefined := fun xs =>
    get_indexed xs (List.mem_cons_self (a := 'u') (l := "serPath".toList)) rfl
  cases v with
  | array xs => exact hindexed xs
  | buffer bs => exact hindexed _
  | _ => rfl

theorem find_object (p : PlainSetting) : p.source.find (Config.object environment policies options) =
    p.kept (p.source.find options) := by
  cases p <;> simp only [PlainSetting.source, ConfigSource.find, prop_object, Config.keep, PlainSetting.kept,
    Option.getD_some, Option.getD_none, getD_ite, field_typeofObject, field_assign] <;> rfl

end New

/-! ### Each setting -/

section Settings
variable {E T : Type} {env : ConfigEnv E T} {environment : Option JsString} {init : Setting → SettingValue E T}
  {options : JsValue} {policies : Props}

theorem Setting.mem_order (s : Setting) : s ∈ Setting.order := by
  cases s with
  | plain p => cases p <;> simp [order]
  | policy slot => simp [order, slot.mem_all]
  | _ => simp [order]

/-- Each setting is read on its own. -/
theorem configured_reads {config : JsValue} {P : Setting → SettingValue E T → Prop} :
    (∃ c, configured env init config = some c ∧ ∀ s, P s (c s)) ↔
      ∀ s : Setting, ∃ v, s.read env config = .ok v ∧ P s (v.getD (init s)) := by
  have haccepts : (configFromJsobject env init config).2 = .ok () ↔ ∀ s : Setting, ∃ v, s.read env config = .ok v :=
    FieldRow.fill_accepted.trans (FieldRow.accepts_map.trans ⟨fun h s => h s s.mem_order, fun h s _ => h s⟩)
  have hvalue : (configFromJsobject env init config).2 = .ok () → ∀ (s : Setting) v, s.read env config = .ok v →
      (configFromJsobject env init config).1 s = v.getD (init s) := by
    intro hok s v hv
    have hfill := FieldRow.fill_ok (s := init) (FieldRow.consistent_map _ Setting.order)
      (FieldRow.fill_accepted.mp hok) s
    rw [FieldRow.found_map s.mem_order, hv] at hfill
    exact hfill
  unfold configured
  rcases hc : configFromJsobject env init config with ⟨c, e | u⟩
  · rw [hc] at haccepts
    constructor
    · rintro ⟨c', h, -⟩
      cases h
    · intro h
      cases haccepts.mpr fun s => (h s).imp fun _ hv => hv.1
  · rw [hc] at haccepts hvalue
    constructor
    · rintro ⟨c', h, hP⟩ s
      obtain rfl := Option.some.inj h
      obtain ⟨v, hv⟩ := haccepts.mp rfl s
      refine ⟨v, hv, ?_⟩
      rw [← hvalue rfl s v hv]
      exact hP s
    · intro h
      refine ⟨c, rfl, fun s => ?_⟩
      obtain ⟨v, hv, hP⟩ := h s
      have hs : c s = v.getD (init s) := hvalue rfl s v hv
      rwa [hs]

theorem isInteger_of_is {n : JsNumber} {i : ℤ} (h : n.Is i) : n.isInteger = true := by
  cases n with
  | fin q hq =>
    have hval : q = (i : ℚ) := Option.some.inj h
    simp [JsNumber.isInteger, hval]
  | negZero => rfl
  | _ => cases h

/-! ### One property -/

theorem read_nullish {r : SettingReader} {v : JsValue} (hv : v.isNullish = true) : r.read env v = .ok none := by
  cases v with
  | undefined | null => cases r <;> rfl
  | _ => cases hv

theorem utf8Of_take {s : JsString} {n : ℕ} : Utf8Of ((nativeStr s).take n) s ↔ s.Clean ∧ s.utf8.length ≤ n := by
  simp only [Utf8Of, take_nativeStr, FitsIn, JsString.Clean, and_assoc]

/-- A property that is not nullish is read as what it says if it fits. -/
theorem read_meant {r : SettingReader} {v : JsValue} {d : SettingValue E T} (hv : v.isNullish = false) :
    (∃ x, r.read env v = .ok x ∧ r.Says v (x.getD d)) ↔ r.Fits env v := by
  cases r with
  | text =>
    cases v with
    | str s => simp [SettingReader.read, JsValue.optionalStringProperty, SettingReader.Says, SettingReader.Fits,
        Except.map, utf8Of_nativeStr]
    | _ => simp [SettingReader.Says, SettingReader.Fits]
  | path =>
    cases v with
    | str s => simp [SettingReader.read, JsValue.optionalStringProperty, SettingReader.Says, SettingReader.Fits,
        Except.map, utf8Of_take]
    | _ => simp [SettingReader.Says, SettingReader.Fits]
  | flag =>
    cases v with
    | bool b => simp [SettingReader.read, JsValue.optionalBoolProperty, SettingReader.Says, SettingReader.Fits,
        Except.map]
    | _ => simp [SettingReader.Says, SettingReader.Fits]
  | word =>
    cases v with
    | num n => simp [SettingReader.read, JsValue.optionalUint32Property, JsValue.optionalNumber, SettingReader.Says,
        SettingReader.Fits, Except.map, JsNumber.is_toUint32]
    | _ => simp [SettingReader.Says, SettingReader.Fits]
  | int =>
    cases v with
    | num n => simp [SettingReader.read, JsValue.optionalIntProperty, JsValue.optionalNumber, SettingReader.Says,
        SettingReader.Fits, Except.map, JsNumber.is_toInt32]
    | _ => simp [SettingReader.Says, SettingReader.Fits]

/-- A number that is not an integer is neither said nor fits. -/
theorem not_says_of_not_integer {r : SettingReader} {v : JsValue} (hr : r = .word ∨ r = .int)
    (hv : v.isInteger = false) : (∀ x : SettingValue E T, ¬r.Says v x) ∧ ¬r.Fits env v := by
  have hnot : ∀ (n : JsNumber) (i : ℤ), v = .num n → ¬n.Is i := by
    rintro n i rfl h
    rw [show JsValue.isInteger (.num n) = n.isInteger from rfl, isInteger_of_is h] at hv
    cases hv
  rcases hr with rfl | rfl
  · refine ⟨?_, ?_⟩
    · rintro x ⟨n, w, hn, -, his⟩
      exact hnot n _ hn his
    · rintro ⟨n, hn, w, his⟩
      exact hnot n _ hn his
  · refine ⟨?_, ?_⟩
    · rintro x ⟨n, i, hn, -, his⟩
      exact hnot n _ hn his
    · rintro ⟨n, hn, i, his⟩
      exact hnot n _ hn his

/-- The class keeps a value, or drops one that could not be what is meant. -/
theorem kept_or_dropped {p : PlainSetting} (h1 : p ≠ .useServicesAlternate) (h2 : p ∉ PlainSetting.missing)
    (v : JsValue) : p.kept v = v ∨
      p.kept v = .undefined ∧ (∀ x : SettingValue E T, ¬p.reader.Says v x) ∧ ¬p.reader.Fits env v := by
  have hinteger : ∀ r : SettingReader, r = .word ∨ r = .int → (if v.isInteger then v else .undefined) = v ∨
      (if v.isInteger then v else .undefined) = .undefined ∧ (∀ x : SettingValue E T, ¬r.Says v x) ∧ ¬r.Fits env v := by
    intro r hr
    cases hv : v.isInteger with
    | true => exact .inl rfl
    | false => exact .inr ⟨rfl, not_says_of_not_integer hr hv⟩
  cases p with
  | useServicesAlternate => exact absurd rfl h1
  | maxConnsPerNodeSync | minConnsPerNodeSync => exact absurd (by simp [PlainSetting.missing]) h2
  | authMode =>
    cases hv : isNumber v with
    | true => exact .inl (by simp [PlainSetting.kept, hv])
    | false =>
      have hnum : v.isInteger = false := by
        cases v with
        | num n => cases hv
        | _ => rfl
      exact .inr ⟨by simp [PlainSetting.kept, hv], not_says_of_not_integer (.inl rfl) hnum⟩
  | connTimeoutMs | loginTimeoutMs | maxSocketIdle | tenderInterval | maxConnsPerNode | maxErrorRate | errorRateWindow
  | minConnsPerNode => exact hinteger .word (.inl rfl)
  | rackId => exact hinteger .int (.inr rfl)
  | _ => exact .inl rfl

theorem default_eq {p : PlainSetting} (h : p ≠ .useServicesAlternate) : p.default init = init (.plain p) := by
  cases p with
  | useServicesAlternate => exact absurd rfl h
  | _ => rfl

theorem kept_nullish {p : PlainSetting} (h : p ≠ .useServicesAlternate) {v : JsValue} (hv : v.isNullish = true) :
    (p.kept v).isNullish = true := by
  have hite : ∀ b : Bool, (if b then v else .undefined).isNullish = true := by
    intro b
    cases b with
    | true => exact hv
    | false => rfl
  cases p with
  | useServicesAlternate => exact absurd rfl h
  | maxConnsPerNodeSync | minConnsPerNodeSync => rfl
  | authMode | rackId | connTimeoutMs | loginTimeoutMs | maxSocketIdle | tenderInterval | maxConnsPerNode | maxErrorRate
  | errorRateWindow | minConnsPerNode => exact hite _
  | _ => exact hv

theorem plain_reads (p : PlainSetting) :
    (∃ x, (Setting.plain p).read env (Config.object environment policies options) = .ok x ∧
      p.Holds init options (x.getD (init (.plain p)))) ↔ p.Fits env init options := by
  have hread : (Setting.plain p).read env (Config.object environment policies options) =
      p.reader.read env (p.kept (p.source.find options)) := by
    rw [Setting.read, find_object]
  rw [hread]
  unfold PlainSetting.Holds PlainSetting.Fits
  generalize p.source.find options = v
  dsimp only
  cases hv : v.isNullish with
  | true =>
    refine iff_of_true ?_ (.inl rfl)
    by_cases h : p = .useServicesAlternate
    · subst h
      refine ⟨some (.flag false), ?_, .inl ⟨rfl, rfl⟩⟩
      cases v with
      | undefined | null => rfl
      | _ => cases hv
    · exact ⟨none, read_nullish (kept_nullish h hv), .inl ⟨rfl, (default_eq h).symm⟩⟩
  | false =>
    simp only [Bool.false_eq_true, false_and, false_or]
    have hdropped : ∀ {r : SettingReader} {d : SettingValue E T},
        (∃ x, r.read env .undefined = .ok x ∧ r.Says v (x.getD d)) ↔ r.Says v d := by
      intro r d
      rw [read_nullish rfl]
      simp
    by_cases h1 : p = .useServicesAlternate
    · subst h1
      have hflag : (∃ x, SettingReader.flag.read env (.bool v.truthy) = .ok x ∧
          SettingReader.flag.Says v (x.getD (init (.plain .useServicesAlternate)))) ↔
          SettingReader.flag.Fits env v := by
        cases v with
        | bool b => simp [SettingReader.read, JsValue.optionalBoolProperty, SettingReader.Says, SettingReader.Fits,
            Except.map, JsValue.truthy]
        | _ => simp [SettingReader.Says, SettingReader.Fits]
      exact hflag
    by_cases h2 : p ∈ PlainSetting.missing
    · have hkept : p.kept v = .undefined := by
        rcases List.mem_pair.mp h2 with rfl | rfl <;> rfl
      rw [if_pos h2, hkept]
      exact hdropped
    rw [if_neg h2]
    rcases kept_or_dropped (E := E) (T := T) h1 h2 v with hkept | ⟨hkept, hmeant, hnot⟩
    · rw [hkept]
      exact read_meant hv
    · rw [hkept, hdropped]
      exact iff_of_false (hmeant _) hnot

/-! ### The other settings -/

theorem exists_map_some {α β : Type} {x : Res α} {f : α → β} {P : Option β → Prop} :
    (∃ v, x.map (fun a => some (f a)) = .ok v ∧ P v) ↔ ∃ a, x = .ok a ∧ P (some (f a)) := by
  cases x with
  | ok a => simp [Except.map]
  | error e => simp [Except.map]

theorem hostString_reads {n : JsNumber} {s : JsString} :
    (∃ hs, hostsFromString env n.toUint32 s = .ok hs ∧ s.Clean ∧
      ∃ port : UInt16, n.Is port.toNat ∧ env.addHosts s.utf8 port = some hs) ↔
    s.Clean ∧ PortFits n ∧ (env.addHosts s.utf8 (narrowPort n)).isSome = true := by
  constructor
  · rintro ⟨hs, -, hclean, port, his, hadd⟩
    have hport := narrowPort_eq his
    refine ⟨hclean, is_narrowPort.mp (hport ▸ his), ?_⟩
    rw [hport, hadd]
    rfl
  · rintro ⟨hclean, hfits, hadd⟩
    obtain ⟨hs, hhs⟩ := Option.isSome_iff_exists.mp hadd
    have htext : nativeStr s = s.utf8 := (utf8Of_nativeStr.mpr hclean).2
    have hread : hostsFromString env n.toUint32 s = .ok hs := by
      rw [hostsFromString, htext, show n.toUint32.toUInt16 = narrowPort n from rfl, hhs]
    exact ⟨hs, hread, hclean, _, is_narrowPort.mpr hfits, hhs⟩

theorem hostArray_reads {port : JsValue} {hosts : List JsValue} :
    (∃ hs, hostsFromArray (configPort port).toUint32 hosts = .ok hs ∧
      List.Forall₂ (fun host h => ∃ e, ObjectGives port host e ∧ h.Denotes e) hosts hs) ↔
    ∀ host ∈ hosts, ObjectTyped host ∧ ObjectFits port host := by
  constructor
  · rintro ⟨hs, hok, hdenotes⟩
    have hboth := List.Forall₂.mp (fun _ _ hh hd => And.intro ((objectTyped_iff _).mpr ⟨_, hh⟩)
      ((object_denotes_iff hh).mp hd)) (hostsFromArray_ok.mp hok) hdenotes
    have hleft : List.Forall₂ (fun host h => (ObjectTyped host ∧ ObjectFits port host) ∧ (fun _ _ => True) host h)
        hosts hs :=
      hboth.imp fun _ _ h => ⟨h, trivial⟩
    exact ((List.forall₂_and_left _ _).mp hleft).1
  · intro h
    obtain ⟨hs, hok⟩ := exists_forall₂ fun host hmem => (objectTyped_iff (configPort port).toUint32).mp (h host hmem).1
    refine ⟨hs, hostsFromArray_ok.mpr hok, ?_⟩
    exact ((List.forall₂_and_left _ _).mpr ⟨h, hok⟩).imp fun _ _ hh => (object_denotes_iff hh.2).mpr hh.1.2

theorem hosts_reads : (∃ v, Setting.hosts.read env (Config.object environment policies options) = .ok v ∧
      Setting.hosts.Holds env environment init options (v.getD (init .hosts))) ↔
    HostsFit env environment options := by
  have hport : (Config.object environment policies options).prop .port = .num (configPort (options.prop .port)) :=
    prop_object .port
  have hhosts : (Config.object environment policies options).prop .hosts = Config.hosts environment options :=
    prop_object .hosts
  have hread : (∃ v, Setting.hosts.read env (Config.object environment policies options) = .ok v ∧
      Setting.hosts.Holds env environment init options (v.getD (init .hosts))) ↔
      ∃ hs, readHosts env (Config.object environment policies options) = .ok hs ∧
        HostsHold env environment options hs := by
    refine exists_map_some.trans (exists_congr fun hs => and_congr_right fun _ => ?_)
    simp [Setting.Holds]
  have hmove : ∀ P Q : List NativeHost → Prop, (∃ hs, P hs ∧ PortGiven options ∧ Q hs) ↔
      PortGiven options ∧ ∃ hs, P hs ∧ Q hs := by
    intro P Q
    constructor
    · rintro ⟨hs, hP, hgiven, hQ⟩
      exact ⟨hgiven, hs, hP, hQ⟩
    · rintro ⟨hgiven, hs, hP, hQ⟩
      exact ⟨hs, hP, hgiven, hQ⟩
  rw [hread]
  unfold readHosts HostsHold HostsFit
  rw [hport, hhosts]
  cases Config.hosts environment options with
  | str s => exact (hmove _ _).trans (and_congr_right fun _ => hostString_reads)
  | array xs => exact (hmove _ _).trans (and_congr_right fun _ => hostArray_reads)
  | _ => exact iff_of_false (by rintro ⟨hs, h, -⟩; cases h) (by rintro ⟨-, h⟩; exact h)

theorem enable_reads {v : JsValue} (hv : v.typeofObject = true) (hset : v.isNullish = false) :
    (∃ b, readEnable v = .ok b ∧ EnableHolds v (.flag b : SettingValue E T)) ↔ EnableFits v := by
  have hnull : v ≠ .null := by
    rintro rfl
    cases hset
  unfold EnableHolds EnableFits readEnable
  cases v.field "enable" <;>
    simp [hv, hnull, JsValue.optionalBoolProperty, Except.map, SettingReader.Says, JsValue.isNullish]

/-- A section that is read. -/
theorem section_reads {v : JsValue} {d : SettingValue E T} {r : Res (Option (SettingValue E T))} {P : Prop}
    {Q : Option (SettingValue E T) → Prop} (hv : v.typeofObject = true) (hset : v.isNullish = false)
    (hr : r = (readEnable v).map fun b => some (.flag b)) (hP : P → v.isNullish = true) :
    (∃ x, r = .ok x ∧ (P ∧ Q x ∨ EnableHolds v (x.getD d))) ↔ P ∨ EnableFits v := by
  have hnot : ¬P := by
    intro h
    rw [hP h] at hset
    cases hset
  rw [hr, exists_map_some]
  simpa [hnot] using enable_reads hv hset

/-- A section that is not there. -/
theorem section_missing {v : JsValue} {d : SettingValue E T} (hv : v.typeofObject = false) {P : Prop} :
    (∃ x : Option (SettingValue E T), (.ok none : Res (Option (SettingValue E T))) = .ok x ∧
      (P ∧ x.getD d = d ∨ EnableHolds v (x.getD d))) ↔ P ∨ EnableFits v := by
  simp [EnableHolds, EnableFits, hv]

theorem tls_reads : (∃ v, Setting.tlsEnable.read env (Config.object environment policies options) = .ok v ∧
      Setting.tlsEnable.Holds env environment init options (v.getD (init .tlsEnable))) ↔
    Setting.tlsEnable.Fits env environment init options := by
  have hprop : (Config.object environment policies options).prop .tls =
      if (options.prop .tls).typeofObject then options.prop .tls else .undefined :=
    (prop_object .tls).trans (getD_ite _ _)
  have hmap : ∀ v, ((readEnable v).map some).map (Option.map SettingValue.flag) =
      (readEnable v).map fun b => some (.flag b : SettingValue E T) := fun v => by cases readEnable v <;> rfl
  have hundefined : ∀ {v : JsValue}, v = .undefined → v.isNullish = true := fun h => by rw [h]; rfl
  unfold Setting.read Setting.Holds Setting.Fits
  dsimp only
  rw [hprop]
  generalize options.prop .tls = v
  cases v with
  | null => simp [readTls, JsValue.typeofObject, JsValue.isObject, Except.map, EnableFits]
  | buffer bs => exact section_reads rfl rfl (hmap (.buffer bs)) hundefined
  | array xs => exact section_reads rfl rfl (hmap (.array xs)) hundefined
  | map es => exact section_reads rfl rfl (hmap (.map es)) hundefined
  | obj cls ps => exact section_reads rfl rfl (hmap (.obj cls ps)) hundefined
  | _ => exact section_missing rfl

theorem shm_reads : (∃ v, Setting.useShm.read env (Config.object environment policies options) = .ok v ∧
      Setting.useShm.Holds env environment init options (v.getD (init .useShm))) ↔
    Setting.useShm.Fits env environment init options := by
  have hprop : (Config.object environment policies options).prop .sharedMemory =
      if (options.prop .sharedMemory).typeofObject then options.prop .sharedMemory else .undefined :=
    (prop_object .sharedMemory).trans (getD_ite _ _)
  unfold Setting.read Setting.Holds Setting.Fits
  dsimp only
  rw [hprop]
  generalize options.prop .sharedMemory = v
  cases v with
  | null => simp [JsValue.typeofObject, JsValue.isObject, JsValue.isNullish]
  | buffer bs | array xs | map es | obj cls ps => exact section_reads rfl rfl rfl id
  | _ => exact section_missing rfl

/-- A user with a password. -/
theorem texts_read {s t : JsString} {d : SettingValue E T} :
    (∃ v, (readLogin env (.str s) (.str t)).map (Option.map fun l => .login l.1 l.2) = .ok v ∧
      ((JsValue.str s).isNullish = true ∧ v.getD d = d ∨ ∃ s' t' user password, JsValue.str s = .str s' ∧
        JsValue.str t = .str t' ∧ v.getD d = .login user password ∧ Utf8Of user s' ∧ Utf8Of password t')) ↔
    (JsValue.str s).isNullish = true ∨ ∃ s' t', JsValue.str s = .str s' ∧ JsValue.str t = .str t' ∧ s'.Clean ∧
      t'.Clean ∧ env.setUser s'.utf8 t'.utf8 = true := by
  have hread : readLogin env (.str s) (.str t) =
      if env.setUser (nativeStr s) (nativeStr t) then .ok (some (nativeStr s, nativeStr t)) else .error .paramErr := rfl
  have htaken : s.Clean → t.Clean → env.setUser s.utf8 t.utf8 = env.setUser (nativeStr s) (nativeStr t) := by
    intro hs ht
    rw [(utf8Of_nativeStr.mpr hs).2, (utf8Of_nativeStr.mpr ht).2]
  rw [hread]
  cases hset : env.setUser (nativeStr s) (nativeStr t) with
  | true =>
    simp only [if_true, Except.map, Option.map, JsValue.isNullish, Bool.false_eq_true, false_and, false_or]
    constructor
    · rintro ⟨v, hv, s', t', user, password, hs, ht, hlogin, huser, hpassword⟩
      obtain rfl := JsValue.str.inj hs
      obtain rfl := JsValue.str.inj ht
      obtain rfl := Except.ok.inj hv
      obtain ⟨rfl, rfl⟩ := SettingValue.login.inj hlogin
      have hs := utf8Of_nativeStr.mp huser
      have ht := utf8Of_nativeStr.mp hpassword
      exact ⟨s, t, rfl, rfl, hs, ht, (htaken hs ht).trans hset⟩
    · rintro ⟨s', t', hs, ht, hsc, htc, -⟩
      obtain rfl := JsValue.str.inj hs
      obtain rfl := JsValue.str.inj ht
      exact ⟨_, rfl, s, t, _, _, rfl, rfl, rfl, utf8Of_nativeStr.mpr hsc, utf8Of_nativeStr.mpr htc⟩
  | false =>
    refine iff_of_false ?_ ?_
    · rintro ⟨v, hv, -⟩
      cases hv
    · rintro (hnull | ⟨s', t', hs, ht, hsc, htc, htaken'⟩)
      · cases hnull
      · obtain rfl := JsValue.str.inj hs
        obtain rfl := JsValue.str.inj ht
        rw [htaken hsc htc, hset] at htaken'
        cases htaken'

theorem login_reads : (∃ v, Setting.login.read env (Config.object environment policies options) = .ok v ∧
      Setting.login.Holds env environment init options (v.getD (init .login))) ↔
    Setting.login.Fits env environment init options := by
  have huser : (Config.object environment policies options).prop .user =
      if (options.prop .user).isString then options.prop .user else .undefined :=
    (prop_object .user).trans (getD_ite _ _)
  have hpassword : (Config.object environment policies options).prop .password =
      if (options.prop .password).isString then options.prop .password else .undefined :=
    (prop_object .password).trans (getD_ite _ _)
  unfold Setting.read Setting.Holds Setting.Fits
  dsimp only
  rw [huser, hpassword]
  generalize options.prop .user = u
  generalize options.prop .password = p
  cases u with
  | str s =>
    cases p with
    | str t => exact texts_read
    | _ => simp [readLogin, JsValue.isString, JsValue.optionalStringProperty, JsValue.stringProperty, JsValue.isNullish,
        Except.map, bind, Except.bind]
  | _ => simp [readLogin, JsValue.isString, JsValue.optionalStringProperty, JsValue.isNullish, Except.map, bind,
      Except.bind, pure, Except.pure]

theorem mapM_intProperty {ids : List JsValue} {racks : List Int32} :
    ids.mapM JsValue.intProperty = .ok racks ↔ List.Forall₂ (fun id rack => id.intProperty = .ok rack) ids racks := by
  induction ids generalizing racks with
  | nil =>
    rw [List.forall₂_nil_left_iff]
    exact ⟨fun h => (Except.ok.inj h).symm, fun h => congrArg Except.ok h.symm⟩
  | cons id ids ih =>
    rw [List.forall₂_cons_left_iff, List.mapM_cons]
    constructor
    · intro h
      obtain ⟨rack, hrack, h⟩ := Except.bind_eq_ok.1 h
      obtain ⟨rest, hrest, h⟩ := Except.bind_eq_ok.1 h
      exact ⟨rack, rest, hrack, ih.1 hrest, (Except.ok.inj h).symm⟩
    · rintro ⟨rack, rest, hrack, hrest, rfl⟩
      exact Except.bind_eq_ok.2 ⟨rack, hrack, Except.bind_eq_ok.2 ⟨rest, ih.2 hrest, rfl⟩⟩

theorem rack_is {id : JsValue} {rack : Int32} (h : id.intProperty = .ok rack) :
    (∃ n, id = .num n ∧ n.Is rack.toInt) ↔ ∃ n, id = .num n ∧ ∃ i : Int32, n.Is i.toInt := by
  cases id with
  | num n =>
    obtain rfl : n.toInt32 = rack := Except.ok.inj h
    simpa using JsNumber.is_toInt32
  | _ => cases h

theorem racks_read {ids : List JsValue} :
    (∃ racks, ids.mapM JsValue.intProperty = .ok racks ∧
      List.Forall₂ (fun id rack => ∃ n, id = .num n ∧ n.Is rack.toInt) ids racks) ↔
    ∀ id ∈ ids, ∃ n, id = .num n ∧ ∃ i : Int32, n.Is i.toInt := by
  simp only [mapM_intProperty]
  constructor
  · rintro ⟨racks, hread, his⟩
    have hboth := List.Forall₂.mp (fun _ _ hr hi => And.intro ((rack_is hr).mp hi) hr) hread his
    exact ((List.forall₂_and_left _ _).mp hboth).1
  · intro h
    obtain ⟨racks, hread⟩ := exists_forall₂ (R := fun id rack => JsValue.intProperty id = .ok rack) fun id hid => by
      obtain ⟨n, rfl, -⟩ := h id hid
      exact ⟨_, rfl⟩
    exact ⟨racks, hread, ((List.forall₂_and_left _ _).mpr ⟨h, hread⟩).imp fun _ _ hh => (rack_is hh.2).mpr hh.1⟩

theorem rackIds_reads : (∃ v, Setting.rackIds.read env (Config.object environment policies options) = .ok v ∧
      Setting.rackIds.Holds env environment init options (v.getD (init .rackIds))) ↔
    Setting.rackIds.Fits env environment init options := by
  have hprop : (Config.object environment policies options).prop .rackIds = options.prop .rackIds :=
    prop_object .rackIds
  unfold Setting.read Setting.Holds Setting.Fits
  dsimp only
  rw [hprop]
  cases options.prop .rackIds with
  | array ids =>
    by_cases hids : ids = []
    · subst hids
      exact iff_of_true ⟨none, rfl, .inl ⟨.inr rfl, rfl⟩⟩ (.inr ⟨[], rfl, by simp⟩)
    have hread : (∃ racks, ids.mapM JsValue.intProperty = .ok racks ∧
        List.Forall₂ (fun id rack => ∃ n, id = .num n ∧ n.Is rack.toInt) ids racks) ↔
        ∀ id ∈ ids, ∃ n, id = .num n ∧ ∃ i : Int32, n.Is i.toInt := racks_read
    cases hracks : ids.mapM JsValue.intProperty with
    | ok racks =>
      have hempty : racks ≠ [] := by
        rintro rfl
        exact hids (List.forall₂_nil_right_iff.mp (mapM_intProperty.mp hracks))
      simpa [JsValue.optionalRackIdsProperty, Except.map, JsValue.isNullish, hracks, hids, hempty] using hread
    | error e => simpa [JsValue.optionalRackIdsProperty, Except.map, JsValue.isNullish, hracks, hids] using hread
  | _ => simp [JsValue.optionalRackIdsProperty, Except.map, JsValue.isNullish]

theorem policy_reads (hmade : setDefaultPolicies (Config.policyProps options) = some policies) (slot : PolicySlot) :
    (∃ v, (Setting.policy slot).read env (Config.object environment policies options) = .ok v ∧
      (Setting.policy slot).Holds env environment init options (v.getD (init (.policy slot)))) ↔
    (Setting.policy slot).Fits env environment init options := by
  have hprop : (Config.object environment policies options).prop .policies = .plain policies := prop_object .policies
  have hcreate := get_setDefaultPolicies hmade (JsString.lit slot.name)
  unfold Setting.read Setting.Holds Setting.Fits
  dsimp only
  rw [hprop, show (JsValue.plain policies).isObject = true from rfl, if_pos rfl,
    show (JsValue.plain policies).field slot.name = Props.get policies (JsString.lit slot.name) from rfl]
  cases hnull : (Props.get (Config.policyProps options) (JsString.lit slot.name)).isNullish with
  | true =>
    rw [createPolicy, hnull, if_pos rfl] at hcreate
    rw [← Option.some.inj hcreate]
    simp [PolicySlot.readPolicy, JsValue.isObject, Except.map]
  | false =>
    rw [createPolicy_slot slot hnull] at hcreate
    have hobject := isObject_created slot.cls (Props.get (Config.policyProps options) (JsString.lit slot.name))
    simp only [Bool.false_eq_true, false_and, false_or, true_and]
    rw [← created_holds_iff env.policyInit, Option.some.inj hcreate]
    rw [Option.some.inj hcreate] at hobject
    constructor
    · rintro ⟨v, hread, policy, hpolicy, hholds⟩
      obtain ⟨x, hx, rfl⟩ := Except.map_eq_ok.mp hread
      cases x with
      | none =>
        rw [readPolicy_none hx] at hobject
        cases hobject
      | some s =>
        obtain rfl := SettingValue.policy.inj hpolicy
        exact ⟨s, hx, hholds⟩
    · rintro ⟨s, hs, hholds⟩
      exact ⟨some (.policy s), Except.map_eq_ok.mpr ⟨some s, hs, rfl⟩, s, rfl, hholds⟩

/-- The constructor throws at a policy of no class. -/
theorem createPolicy_isSome {type : JsString} {values : JsValue} :
    (createPolicy type values).isSome = true ↔ values.isNullish = true ∨ IsPolicyType type := by
  unfold createPolicy IsPolicyType
  cases values.isNullish with
  | true => simp
  | false =>
    cases h : policyTypes.find? fun t => JsString.lit t.1 == type with
    | some t =>
      have ht := List.find?_some h
      exact iff_of_true rfl (.inr (.inl ⟨t, List.mem_of_find?_eq_some h, beq_iff_eq.mp ht⟩))
    | none =>
      have hpolicy : ¬∃ t ∈ policyTypes, JsString.lit t.1 = type := by simpa using List.find?_eq_none.mp h
      cases h' : operationPolicyTypes.find? fun t => JsString.lit t.1 == type with
      | some t =>
        have ht := List.find?_some h'
        exact iff_of_true rfl (.inr (.inr ⟨t, List.mem_of_find?_eq_some h', beq_iff_eq.mp ht⟩))
      | none =>
        have hoperation : ¬∃ t ∈ operationPolicyTypes, JsString.lit t.1 = type := by
          simpa using List.find?_eq_none.mp h'
        exact iff_of_false Bool.false_ne_true
          (by simp only [Bool.false_eq_true, hpolicy, hoperation, or_self, not_false_iff])

theorem setDefaultPolicies_isSome {policies : Props} : (∃ made, setDefaultPolicies policies = some made) ↔
    ∀ p ∈ policies, p.2.isNullish = true ∨ IsPolicyType p.1 := by
  unfold setDefaultPolicies
  induction policies with
  | nil => simp
  | cons p ps ih =>
    rw [List.forall_mem_cons, ← createPolicy_isSome, ← ih, List.mapM_cons]
    cases createPolicy p.1 p.2 with
    | none =>
      refine iff_of_false ?_ fun h => Bool.false_ne_true h.1
      rintro ⟨made, h⟩
      cases h
    | some v =>
      cases ps.mapM fun p => (createPolicy p.1 p.2).map fun v => (p.1, v) with
      | none =>
        refine iff_of_false ?_ ?_
        · rintro ⟨made, h⟩
          cases h
        · rintro ⟨-, made, h⟩
          cases h
      | some made => exact iff_of_true ⟨_, rfl⟩ ⟨rfl, _, rfl⟩

/-- Each setting comes through, whatever the others are. -/
theorem setting_reads (hmade : setDefaultPolicies (Config.policyProps options) = some policies) (s : Setting) :
    (∃ v, s.read env (Config.object environment policies options) = .ok v ∧
      s.Holds env environment init options (v.getD (init s))) ↔ s.Fits env environment init options := by
  cases s with
  | plain p => exact plain_reads p
  | hosts => exact hosts_reads
  | tlsEnable => exact tls_reads
  | policy slot => exact policy_reads hmade slot
  | login => exact login_reads
  | useShm => exact shm_reads
  | rackIds => exact rackIds_reads

/-- A client is made and configured as its options say, in all settings, exactly if the options fit: the port is a
number and the hosts can be read, the TLS section is an object or left out, a user has a password, and every other
value is of the type of its setting, without a truncation. The two connection limits of the synchronous interface
do not come through, because no `Config` has them. -/
theorem newClient_configured_iff (environment : Option JsString) (init : Setting → SettingValue E T)
    (options : JsValue) : (∃ c, newClient env environment init options = some c ∧
      ∀ s : Setting, s.Holds env environment init options (c s)) ↔ OptionsFit env environment init options := by
  rw [newClient, new_eq]
  cases hmade : setDefaultPolicies (Config.policyProps options) with
  | none =>
    refine iff_of_false ?_ fun hfit => ?_
    · rintro ⟨c, h, -⟩
      cases h
    · obtain ⟨made, h⟩ := setDefaultPolicies_isSome.mpr hfit.policies
      rw [hmade] at h
      cases h
  | some policies =>
    have hpolicies := setDefaultPolicies_isSome.mp ⟨policies, hmade⟩
    rw [Option.map_some, Option.bind_some, configured_reads (P := fun s x => s.Holds env environment init options x)]
    constructor
    · intro h
      exact ⟨hpolicies, fun s => (setting_reads hmade s).mp (h s)⟩
    · intro hfit s
      exact (setting_reads hmade s).mpr (hfit.settings s)

end Settings

end AerospikeNode
