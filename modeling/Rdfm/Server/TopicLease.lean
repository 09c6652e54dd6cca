import Rdfm.Lib.AccessList
import Rdfm.Lib.Transition

/-!
# Topic leases

A device writes to a topic of a Kafka cluster that is named after its MAC address. The server leases
the topic to the device with ACLs that allow it to write, and confiscates it with ACLs that deny it.
The ACLs of the device are read back from the cluster in `RdfmDeviceWriteAuthorizationStatus`, which
says what to add and what to delete.

A lease grants the topic to the device and a confiscation revokes it (`Rdfm.Lib.grant`,
`Rdfm.Lib.revoke`), but not always: a confiscation fails if the device has no ACL on the topic, and
a lease that creates the topic does not look for ACLs that are already there. The calls of a run do
what they are for exactly if neither happens (`topic_leases_iff`).
-/

namespace Rdfm.Server.Pubsub

open Rdfm.Lib

/-! ## ACLs -/

inductive ResourceType where
  | unknown
  | topic
  | group
  | cluster
  | transactionalId
  | delegationToken
deriving DecidableEq, Repr

inductive ACLResourcePatternType where
  | literal
  | prefixed
deriving DecidableEq, Repr

structure ResourcePattern where
  resourceType : ResourceType
  resourceName : String
  patternType : ACLResourcePatternType := .literal
deriving DecidableEq, Repr

inductive ACLOperation where
  | all
  | read
  | write
  | create
  | delete
  | alter
  | describe
  | clusterAction
  | describeConfigs
  | alterConfigs
  | idempotentWrite
deriving DecidableEq, Repr

abbrev ACLPermissionType := Rule

structure ACL where
  principal : String
  host : String
  operation : ACLOperation
  permissionType : ACLPermissionType
  resourcePattern : ResourcePattern
deriving DecidableEq, Repr

/-- A filter; `none` stands for `ANY`. -/
structure ACLFilter where
  principal : String
  host : String
  operation : Option ACLOperation
  permissionType : Option ACLPermissionType
  resourcePattern : ResourcePattern
deriving DecidableEq, Repr

/-- The filter matches the ACL. -/
def ACLFilter.accepts (filter : ACLFilter) (acl : ACL) : Bool :=
  filter.principal = acl.principal ∧ filter.host = acl.host ∧
    (∀ operation ∈ filter.operation, operation = acl.operation) ∧
    (∀ permissionType ∈ filter.permissionType, permissionType = acl.permissionType) ∧
    filter.resourcePattern = acl.resourcePattern

structure ACLTarget where
  add : List ACL := []
  delete : List ACLFilter := []
deriving DecidableEq, Repr

/-! ## The status of a device -/

inductive PubsubError where
  | valueError (message : String)
  /-- An attribute of `None` is read. -/
  | attributeError
  /-- An error that Kafka reports by its code. -/
  | kafkaError (code : Int) (message : String)
deriving DecidableEq, Repr

structure RdfmDeviceWriteAuthorizationStatus where
  principal : Option String := none
  topicName : Option String := none
  host : String := "*"
  allowWrite : Bool := false
  denyWrite : Bool := false
  allowIdempotentWrite : Bool := false
  denyIdempotentWrite : Bool := false
deriving DecidableEq, Repr

namespace RdfmDeviceWriteAuthorizationStatus

def initFromMacAndTopicName (deviceMac topicName : String) :
    RdfmDeviceWriteAuthorizationStatus where
  principal := some ("User:" ++ deviceMac)
  topicName := some topicName

/-- The flag of an ACL is set. -/
def note (status : RdfmDeviceWriteAuthorizationStatus) (acl : ACL) :
    RdfmDeviceWriteAuthorizationStatus :=
  match acl.permissionType, acl.operation with
  | .allow, .write => { status with allowWrite := true }
  | .allow, .idempotentWrite => { status with allowIdempotentWrite := true }
  | .deny, .write => { status with denyWrite := true }
  | .deny, .idempotentWrite => { status with denyIdempotentWrite := true }
  | _, _ => status

def initFromAcls : List ACL → Except PubsubError RdfmDeviceWriteAuthorizationStatus
  | [] => .ok {}
  | first :: rest =>
    let acls := first :: rest
    if ¬ ∀ acl ∈ acls, first.principal = acl.principal then
      .error (.valueError "All principals in the ACL list must be the same")
    else if ¬ ∀ acl ∈ acls, ResourceType.topic = acl.resourcePattern.resourceType then
      .error (.valueError
        "All resource types in the ACL list must be of type ResourceType.TOPIC")
    else if ¬ ∀ acl ∈ acls, ACLResourcePatternType.literal = acl.resourcePattern.patternType then
      .error (.valueError ("All pattern types in the ACL list must" ++
        " be of type ACLResourcePatternType.LITERAL"))
    else if ¬ ∀ acl ∈ acls,
        first.resourcePattern.resourceName = acl.resourcePattern.resourceName then
      .error (.valueError "All topics in the ACL list must be the same")
    else
      .ok (acls.foldl note
        { principal := some first.principal, topicName := some first.resourcePattern.resourceName })

variable (status : RdfmDeviceWriteAuthorizationStatus)

def canWrite : Bool := status.allowWrite && !status.denyWrite

def canIdempotentWrite : Bool := status.allowIdempotentWrite && !status.denyIdempotentWrite

/-- The principal and the topic, unless one of them is missing or empty. -/
def names : Option (String × String) :=
  match status.principal, status.topicName with
  | some principal, some topicName =>
    if principal = "" ∨ topicName = "" then none else some (principal, topicName)
  | _, _ => none

def authorizationAcls : Option ACLTarget :=
  match status.names with
  | none => none
  | some (principal, topicName) =>
    let pattern : ResourcePattern := { resourceType := .topic, resourceName := topicName }
    some {
      add :=
        (if !status.allowWrite then [⟨principal, status.host, .write, .allow, pattern⟩] else []) ++
        if !status.allowIdempotentWrite then
          [⟨principal, status.host, .idempotentWrite, .allow, pattern⟩] else []
      delete :=
        (if status.denyWrite then [⟨principal, status.host, some .write, some .deny, pattern⟩]
          else []) ++
        if status.denyIdempotentWrite then
          [⟨principal, status.host, some .idempotentWrite, some .deny, pattern⟩] else [] }

def deauthorizationAcls : Option ACLTarget :=
  match status.names with
  | none => none
  | some (principal, topicName) =>
    let pattern : ResourcePattern := { resourceType := .topic, resourceName := topicName }
    some {
      add :=
        (if !status.denyWrite then [⟨principal, status.host, .write, .deny, pattern⟩] else []) ++
        if !status.denyIdempotentWrite then
          [⟨principal, status.host, .idempotentWrite, .deny, pattern⟩] else [] }

end RdfmDeviceWriteAuthorizationStatus

/-! ## Topics -/

/-- A character of `[a-zA-Z0-9\._\-]`. -/
def isTopicChar (c : Char) : Bool := c.isAlphanum || c = '.' || c = '_' || c = '-'

def deviceMacToTopicName (deviceMac : String) : String :=
  String.ofList (deviceMac.toList.map fun c => if isTopicChar c then c else '-')

/-- The names that Kafka accepts for a topic. -/
def isTopicName (name : String) : Bool :=
  name ≠ "" ∧ name ≠ "." ∧ name ≠ ".." ∧ name.length ≤ 249 ∧ name.toList.all isTopicChar

/-- The topics and the ACLs of a cluster. -/
structure Cluster where
  topics : List String
  acls : List ACL
deriving DecidableEq, Repr

/-- What Kafka answers beyond the state of the cluster. -/
structure Kafka where
  /-- The ACLs that match the filter, in some order. -/
  describeAcls : List ACL → ACLFilter → List ACL
  mem_describeAcls : ∀ acls filter acl,
    acl ∈ describeAcls acls filter ↔ acl ∈ acls ∧ filter.accepts acl = true
  /-- The code and the message of the error with which a topic is refused. -/
  refuses : List String → String → Option (Int × String)

namespace Cluster

variable (s : Cluster)

/-- The code of the error with which the topic is described, if it is not 0. -/
def describeTopics (topicName : String) : Option Int :=
  if !isTopicName topicName then some 17
  else if topicName ∈ s.topics then none
  else some 3

def createAcls (acls : List ACL) : Cluster :=
  { s with acls := s.acls ++ acls.filter fun acl => acl ∉ s.acls }

def deleteAcls (filters : List ACLFilter) : Cluster :=
  { s with acls := s.acls.filter fun acl => !filters.any fun filter => filter.accepts acl }

end Cluster

/-! ## Calls -/

namespace Kafka

variable (kafka : Kafka) (s : Cluster)

/-- `_describe_acls_for_device`. -/
def describeAclsForDevice (deviceMac topic : String) (operation : ACLOperation) : List ACL :=
  kafka.describeAcls s.acls {
    principal := "User:" ++ deviceMac
    host := "*"
    operation := some operation
    permissionType := none
    resourcePattern := { resourceType := .topic, resourceName := topic } }

/-- The ACLs that the three methods collect. -/
def writeAcls (deviceMac topic : String) : List ACL :=
  kafka.describeAclsForDevice s deviceMac topic .write ++
    kafka.describeAclsForDevice s deviceMac topic .idempotentWrite

/-- The status on a topic, which may have no ACLs. -/
def topicStatus (deviceMac topicName : String) :
    Except PubsubError RdfmDeviceWriteAuthorizationStatus :=
  let acls := kafka.writeAcls s deviceMac topicName
  if acls ≠ [] then RdfmDeviceWriteAuthorizationStatus.initFromAcls acls
  else .ok (RdfmDeviceWriteAuthorizationStatus.initFromMacAndTopicName deviceMac topicName)

def leaseTopicForDevice (deviceMac : String) : Cluster × Except PubsubError String :=
  let topicName := deviceMacToTopicName deviceMac
  match s.describeTopics topicName with
  | some 3 =>
    match kafka.refuses s.topics topicName with
    | some (code, message) => (s, .error (.kafkaError code message))
    | none =>
      let s := { s with topics := topicName :: s.topics }
      match (RdfmDeviceWriteAuthorizationStatus.initFromMacAndTopicName deviceMac
        topicName).authorizationAcls with
      | none => (s, .error .attributeError)
      | some target => (s.createAcls target.add, .ok topicName)
  | none =>
    match kafka.topicStatus s deviceMac topicName with
    | .error err => (s, .error err)
    | .ok status =>
      match status.authorizationAcls with
      | none => (s, .error .attributeError)
      | some target => ((s.createAcls target.add).deleteAcls target.delete, .ok topicName)
  | some code => (s, .error (.kafkaError code
      ("Failed to describe the " ++ topicName ++ " topic!")))

def confiscateTopicFromDevice (deviceMac : String) : Cluster × Except PubsubError Unit :=
  let topicName := deviceMacToTopicName deviceMac
  match s.describeTopics topicName with
  | some 3 => (s, .error (.kafkaError 3
      ("Cannot deauthorize " ++ deviceMac ++ ": topic " ++ topicName ++ " doesn't exist")))
  | none =>
    match RdfmDeviceWriteAuthorizationStatus.initFromAcls
      (kafka.writeAcls s deviceMac topicName) with
    | .error err => (s, .error err)
    | .ok status =>
      match status.deauthorizationAcls with
      | none => (s, .error .attributeError)
      | some target => (s.createAcls target.add, .ok ())
  | some code => (s, .error (.kafkaError code
      ("Failed to deauthorize " ++ deviceMac ++ ": cannot describe " ++ topicName)))

def deviceTopicStatus (deviceMac : String) :
    Except PubsubError (Option RdfmDeviceWriteAuthorizationStatus) :=
  let topicName := deviceMacToTopicName deviceMac
  match s.describeTopics topicName with
  | some 3 => .ok none
  | none => (kafka.topicStatus s deviceMac topicName).map some
  | some code => .error (.kafkaError code ("Failed to check authorization status of " ++
      deviceMac ++ ": cannot describe " ++ topicName))

end Kafka

/-- The calls that change a cluster. -/
inductive Call where
  | lease (deviceMac : String)
  | confiscate (deviceMac : String)
deriving DecidableEq, Repr

namespace Call

def deviceMac : Call → String
  | lease deviceMac | confiscate deviceMac => deviceMac

/-- The device can write after the call. -/
def leases : Call → Bool
  | lease _ => true
  | confiscate _ => false

variable (kafka : Kafka)

/-- The cluster after a call, and the exception if there is one. -/
def serve (s : Cluster) : Call → Cluster × Except PubsubError Unit
  | lease deviceMac => ((kafka.leaseTopicForDevice s deviceMac).1,
      (kafka.leaseTopicForDevice s deviceMac).2.map fun _ => ())
  | confiscate deviceMac => kafka.confiscateTopicFromDevice s deviceMac

def next (s : Cluster) (call : Call) : Cluster := (call.serve kafka s).1

/-- A topic that exists, or for a lease one that Kafka knows no topic for. -/
def OnTopic (s : Cluster) : Call → Prop
  | lease deviceMac => isTopicName (deviceMacToTopicName deviceMac) = true
  | confiscate deviceMac => s.describeTopics (deviceMacToTopicName deviceMac) = none

/-- What a call is for: it succeeds, the status of the device is as it says, the ACLs of all others
are as they were, and another such call would change nothing. -/
structure Does (s : Cluster) (call : Call) : Prop where
  succeeds : (call.serve kafka s).2 = .ok ()
  status : ∃ status,
    kafka.deviceTopicStatus (call.next kafka s) call.deviceMac = .ok (some status) ∧
      status.canWrite = call.leases ∧ status.canIdempotentWrite = call.leases
  others : ∀ acl : ACL, acl.principal ≠ "User:" ++ call.deviceMac ∨
    acl.resourcePattern ≠
      { resourceType := .topic, resourceName := deviceMacToTopicName call.deviceMac } →
    (acl ∈ (call.next kafka s).acls ↔ acl ∈ s.acls)
  again : call.next kafka (call.next kafka s) = call.next kafka s

end Call

/-! ## The condition -/

/-- The key of an ACL: all of it but the permission. -/
structure Key where
  principal : String
  host : String
  operation : ACLOperation
  resourcePattern : ResourcePattern
deriving DecidableEq, Repr

def Key.acl (key : Key) (permissionType : ACLPermissionType) : ACL :=
  ⟨key.principal, key.host, key.operation, permissionType, key.resourcePattern⟩

/-- The access list that the ACLs are. -/
def Cluster.entries (s : Cluster) : Set (Rule × Key) := {e | e.2.acl e.1 ∈ s.acls}

/-- The key for an operation of a device on its topic, from any host. -/
def deviceKey (deviceMac : String) (operation : ACLOperation) : Key where
  principal := "User:" ++ deviceMac
  host := "*"
  operation := operation
  resourcePattern := { resourceType := .topic, resourceName := deviceMacToTopicName deviceMac }

def writeOperations : List ACLOperation := [.write, .idempotentWrite]

def deviceKeys (deviceMac : String) : Set Key :=
  {key | ∃ operation ∈ writeOperations, key = deviceKey deviceMac operation}

/-- A lease that creates the topic finds no denial there, and Kafka creates it; a confiscation finds
an ACL of the device. -/
def Call.Met (kafka : Kafka) (s : Cluster) : Call → Prop
  | lease deviceMac => deviceMacToTopicName deviceMac ∉ s.topics →
    kafka.refuses s.topics (deviceMacToTopicName deviceMac) = none ∧
      ∀ key ∈ deviceKeys deviceMac, (.deny, key) ∉ s.entries
  | confiscate deviceMac => ∃ key ∈ deviceKeys deviceMac, ∃ rule, (rule, key) ∈ s.entries

/-! ## ACLs of a cluster -/

section Acls

variable {s : Cluster} {acl : ACL}

theorem mem_createAcls {acls : List ACL} :
    acl ∈ (s.createAcls acls).acls ↔ acl ∈ s.acls ∨ acl ∈ acls := by
  by_cases h : acl ∈ s.acls <;> simp [Cluster.createAcls, h]

theorem mem_deleteAcls {filters : List ACLFilter} :
    acl ∈ (s.deleteAcls filters).acls ↔
      acl ∈ s.acls ∧ ¬ ∃ filter ∈ filters, filter.accepts acl = true := by
  simp [Cluster.deleteAcls]

theorem createAcls_eq_self {acls : List ACL} (h : ∀ acl ∈ acls, acl ∈ s.acls) :
    s.createAcls acls = s := by
  have hnone : acls.filter (fun acl => acl ∉ s.acls) = [] := by
    refine List.filter_eq_nil_iff.mpr fun acl hacl => ?_
    simpa using h acl hacl
  rw [Cluster.createAcls, hnone, List.append_nil]

theorem deleteAcls_eq_self {filters : List ACLFilter}
    (h : ∀ acl ∈ s.acls, ¬ ∃ filter ∈ filters, filter.accepts acl = true) :
    s.deleteAcls filters = s := by
  have hall :
      s.acls.filter (fun acl => !filters.any fun filter => filter.accepts acl) = s.acls := by
    refine List.filter_eq_self.mpr fun acl hacl => ?_
    simpa using h acl hacl
  rw [Cluster.deleteAcls, hall]

def ACL.key (acl : ACL) : Key := ⟨acl.principal, acl.host, acl.operation, acl.resourcePattern⟩

/-- The ACLs of a cluster are the entries of its list. -/
theorem mem_acls_iff : acl ∈ s.acls ↔ (acl.permissionType, acl.key) ∈ s.entries := Iff.rfl

theorem mem_entries_createAcls {acls : List ACL} {rule : Rule} {key : Key} :
    (rule, key) ∈ (s.createAcls acls).entries ↔ (rule, key) ∈ s.entries ∨ key.acl rule ∈ acls :=
  mem_createAcls

theorem mem_entries_deleteAcls {filters : List ACLFilter} {rule : Rule} {key : Key} :
    (rule, key) ∈ (s.deleteAcls filters).entries ↔
      (rule, key) ∈ s.entries ∧ ¬ ∃ filter ∈ filters, filter.accepts (key.acl rule) = true :=
  mem_deleteAcls

theorem Key.acl_inj {key key' : Key} {rule rule' : Rule} :
    key.acl rule = key'.acl rule' ↔ rule = rule' ∧ key = key' := by
  obtain ⟨principal, host, operation, pattern⟩ := key
  obtain ⟨principal', host', operation', pattern'⟩ := key'
  simp only [Key.acl, ACL.mk.injEq, Key.mk.injEq]
  tauto

/-- The ACLs for a permission of keys. -/
theorem exists_acl_iff {keys : Set Key} {P : Key → Prop} {key : Key} {rule rule' : Rule} :
    (∃ key' ∈ keys, key.acl rule = key'.acl rule' ∧ P key') ↔
      rule = rule' ∧ key ∈ keys ∧ P key := by
  constructor
  · rintro ⟨_, hkey, heq, hP⟩
    obtain ⟨rfl, rfl⟩ := Key.acl_inj.mp heq
    exact ⟨rfl, hkey, hP⟩
  · rintro ⟨rfl, hkey, hP⟩
    exact ⟨key, hkey, rfl, hP⟩

end Acls

/-! ## The status and the entries -/

namespace RdfmDeviceWriteAuthorizationStatus

/-- The flag for a permission of an operation. -/
def flag (status : RdfmDeviceWriteAuthorizationStatus) : Rule → ACLOperation → Bool
  | .allow, .write => status.allowWrite
  | .deny, .write => status.denyWrite
  | .allow, .idempotentWrite => status.allowIdempotentWrite
  | .deny, .idempotentWrite => status.denyIdempotentWrite
  | _, _ => false

variable {status : RdfmDeviceWriteAuthorizationStatus} {rule : Rule} {op : ACLOperation}

theorem note_flag (acl : ACL) (h : op ∈ writeOperations) :
    (status.note acl).flag rule op =
      (status.flag rule op || decide (acl.permissionType = rule ∧ acl.operation = op)) := by
  obtain ⟨principal, host, operation, permissionType, pattern⟩ := acl
  simp only [writeOperations, List.mem_cons, List.not_mem_nil, or_false] at h
  rcases h with rfl | rfl <;> cases rule <;> cases permissionType <;> cases operation <;>
    simp [note, flag]

theorem note_names (acl : ACL) : (status.note acl).principal = status.principal ∧
    (status.note acl).topicName = status.topicName ∧ (status.note acl).host = status.host := by
  unfold note
  split <;> exact ⟨rfl, rfl, rfl⟩

theorem foldl_note_flag (status : RdfmDeviceWriteAuthorizationStatus) (acls : List ACL)
    (h : op ∈ writeOperations) :
    (acls.foldl note status).flag rule op = true ↔ status.flag rule op = true ∨
      ∃ acl ∈ acls, acl.permissionType = rule ∧ acl.operation = op := by
  induction acls generalizing status with
  | nil => simp
  | cons acl acls ih =>
    rw [List.foldl_cons, ih, note_flag acl h]
    simp [or_assoc]

theorem foldl_note_names (status : RdfmDeviceWriteAuthorizationStatus) (acls : List ACL) :
    (acls.foldl note status).principal = status.principal ∧
      (acls.foldl note status).topicName = status.topicName ∧
      (acls.foldl note status).host = status.host := by
  induction acls generalizing status with
  | nil => exact ⟨rfl, rfl, rfl⟩
  | cons acl acls ih =>
    obtain ⟨hprincipal, htopic, hhost⟩ := status.note_names acl
    rw [List.foldl_cons]
    obtain ⟨hp, ht, hh⟩ := ih (status.note acl)
    exact ⟨hp.trans hprincipal, ht.trans htopic, hh.trans hhost⟩

end RdfmDeviceWriteAuthorizationStatus

open RdfmDeviceWriteAuthorizationStatus

/-- The status says what the cluster has for the device. -/
structure Shows (s : Cluster) (deviceMac : String) (status : RdfmDeviceWriteAuthorizationStatus) :
    Prop where
  principal : status.principal = some ("User:" ++ deviceMac)
  topicName : status.topicName = some (deviceMacToTopicName deviceMac)
  host : status.host = "*"
  flags : ∀ rule, ∀ op ∈ writeOperations,
    status.flag rule op = true ↔ (rule, deviceKey deviceMac op) ∈ s.entries

section Status

variable {kafka : Kafka} {s : Cluster} {deviceMac : String} {acl : ACL}

theorem mem_describeAclsForDevice {op : ACLOperation} :
    acl ∈ kafka.describeAclsForDevice s deviceMac (deviceMacToTopicName deviceMac) op ↔
      acl ∈ s.acls ∧ ∃ rule, acl = (deviceKey deviceMac op).acl rule := by
  obtain ⟨principal, host, operation, permissionType, pattern⟩ := acl
  unfold Kafka.describeAclsForDevice
  rw [kafka.mem_describeAcls]
  refine and_congr_right fun _ => ?_
  simp only [ACLFilter.accepts, Key.acl, deviceKey, decide_eq_true_eq, ACL.mk.injEq]
  constructor
  · rintro ⟨rfl, rfl, hop, -, rfl⟩
    exact ⟨permissionType, rfl, rfl, (hop op rfl).symm, rfl, rfl⟩
  · rintro ⟨rule, rfl, rfl, rfl, rfl, rfl⟩
    refine ⟨rfl, rfl, ?_, nofun, rfl⟩
    rintro _ ⟨⟩
    rfl

theorem mem_writeAcls :
    acl ∈ kafka.writeAcls s deviceMac (deviceMacToTopicName deviceMac) ↔
      acl ∈ s.acls ∧ ∃ key ∈ deviceKeys deviceMac, ∃ rule, acl = key.acl rule := by
  rw [Kafka.writeAcls, List.mem_append, mem_describeAclsForDevice, mem_describeAclsForDevice,
    ← and_or_left]
  refine and_congr_right fun _ => ?_
  simp [deviceKeys, writeOperations]

/-- The ACLs of the device are read as they are on the cluster. -/
theorem initFromAcls_shows (h : kafka.writeAcls s deviceMac (deviceMacToTopicName deviceMac) ≠ []) :
    ∃ status, initFromAcls (kafka.writeAcls s deviceMac (deviceMacToTopicName deviceMac)) =
      .ok status ∧ Shows s deviceMac status := by
  have hmem := fun acl => @mem_writeAcls kafka s deviceMac acl
  cases hacls : kafka.writeAcls s deviceMac (deviceMacToTopicName deviceMac) with
  | nil => exact absurd hacls h
  | cons first rest =>
    rw [hacls] at hmem
    have hkey : ∀ acl ∈ first :: rest, ∃ op rule, acl = (deviceKey deviceMac op).acl rule := by
      intro acl hacl
      obtain ⟨-, _, ⟨op, -, rfl⟩, rule, rfl⟩ := (hmem acl).mp hacl
      exact ⟨op, rule, rfl⟩
    obtain ⟨firstOp, firstRule, rfl⟩ := hkey first List.mem_cons_self
    unfold initFromAcls
    dsimp only
    rw [if_neg, if_neg, if_neg, if_neg]
    · refine ⟨_, rfl, ?_⟩
      obtain ⟨hprincipal, htopic, hhost⟩ := foldl_note_names
        { principal := some _, topicName := some _ }
        ((deviceKey deviceMac firstOp).acl firstRule :: rest)
      refine ⟨hprincipal, htopic, hhost, fun rule op hop => ?_⟩
      rw [foldl_note_flag _ _ hop]
      constructor
      · rintro (hflag | ⟨acl, hacl, rfl, rfl⟩)
        · cases rule <;> cases op <;> cases hflag
        · obtain ⟨hs, _, ⟨op, -, rfl⟩, rule, rfl⟩ := (hmem acl).mp hacl
          exact hs
      · intro hentry
        exact .inr ⟨_, (hmem _).mpr ⟨hentry, _, ⟨op, hop, rfl⟩, rule, rfl⟩, rfl, rfl⟩
    all_goals
      rw [not_not]
      intro acl hacl
      obtain ⟨op, rule, rfl⟩ := hkey acl hacl
      rfl

theorem writeAcls_ne_nil : kafka.writeAcls s deviceMac (deviceMacToTopicName deviceMac) ≠ [] ↔
    ∃ key ∈ deviceKeys deviceMac, ∃ rule, (rule, key) ∈ s.entries := by
  constructor
  · intro h
    obtain ⟨acl, hacl⟩ := List.exists_mem_of_ne_nil _ h
    obtain ⟨hs, key, hkey, rule, rfl⟩ := mem_writeAcls.mp hacl
    exact ⟨key, hkey, rule, hs⟩
  · rintro ⟨key, hkey, rule, hentry⟩
    exact List.ne_nil_of_mem (mem_writeAcls.mpr ⟨hentry, key, hkey, rule, rfl⟩)

/-- The status without an ACL. -/
theorem initFromMac_shows
    (h : ∀ key ∈ deviceKeys deviceMac, ∀ rule, (rule, key) ∉ s.entries) :
    Shows s deviceMac (initFromMacAndTopicName deviceMac (deviceMacToTopicName deviceMac)) := by
  refine ⟨rfl, rfl, rfl, fun rule op hop => ?_⟩
  refine iff_of_false ?_ (h _ ⟨op, hop, rfl⟩ rule)
  cases rule <;> cases op <;> exact Bool.false_ne_true

theorem topicStatus_shows :
    ∃ status, kafka.topicStatus s deviceMac (deviceMacToTopicName deviceMac) = .ok status ∧
      Shows s deviceMac status := by
  unfold Kafka.topicStatus
  dsimp only
  by_cases h : kafka.writeAcls s deviceMac (deviceMacToTopicName deviceMac) = []
  · rw [if_neg (not_not.mpr h)]
    refine ⟨_, rfl, initFromMac_shows fun key hkey rule hentry => ?_⟩
    exact writeAcls_ne_nil.mpr ⟨key, hkey, rule, hentry⟩ h
  · rw [if_pos h]
    exact initFromAcls_shows h

end Status

/-! ## What is added and deleted -/

theorem accepts_iff {principal host : String} {op : ACLOperation} {rule : Rule}
    {pattern : ResourcePattern} {acl : ACL} :
    ACLFilter.accepts ⟨principal, host, some op, some rule, pattern⟩ acl = true ↔
      acl = ⟨principal, host, op, rule, pattern⟩ := by
  obtain ⟨principal', host', operation, permissionType, pattern'⟩ := acl
  simp only [ACLFilter.accepts, decide_eq_true_eq, ACL.mk.injEq]
  constructor
  · rintro ⟨rfl, rfl, hop, hrule, rfl⟩
    exact ⟨rfl, rfl, (hop op rfl).symm, (hrule rule rfl).symm, rfl⟩
  · rintro ⟨rfl, rfl, rfl, rfl, rfl⟩
    refine ⟨rfl, rfl, ?_, ?_, rfl⟩ <;>
    · rintro _ ⟨⟩
      rfl

theorem ne_empty_of_isTopicName {name : String} (h : isTopicName name = true) : name ≠ "" := by
  simp only [isTopicName, decide_eq_true_eq] at h
  exact h.1

section Targets

variable {s : Cluster} {deviceMac : String} {status : RdfmDeviceWriteAuthorizationStatus}

theorem Shows.names (h : Shows s deviceMac status)
    (hname : isTopicName (deviceMacToTopicName deviceMac) = true) :
    status.names = some ("User:" ++ deviceMac, deviceMacToTopicName deviceMac) := by
  have hprincipal : "User:" ++ deviceMac ≠ "" := by
    intro hempty
    have := congrArg String.length hempty
    simp at this
  unfold RdfmDeviceWriteAuthorizationStatus.names
  rw [h.principal, h.topicName]
  exact if_neg (not_or.mpr ⟨hprincipal, ne_empty_of_isTopicName hname⟩)

/-- The keys of the device, of which each has its operation. -/
theorem exists_deviceKeys {deviceMac : String} {P : Key → Prop} :
    (∃ key ∈ deviceKeys deviceMac, P key) ↔
      P (deviceKey deviceMac .write) ∨ P (deviceKey deviceMac .idempotentWrite) := by
  simp [deviceKeys, writeOperations]

theorem forall_deviceKeys {deviceMac : String} {P : Key → Prop} :
    (∀ key ∈ deviceKeys deviceMac, P key) ↔
      P (deviceKey deviceMac .write) ∧ P (deviceKey deviceMac .idempotentWrite) := by
  simp [deviceKeys, writeOperations]

theorem Shows.authorizationAcls (h : Shows s deviceMac status)
    (hname : isTopicName (deviceMacToTopicName deviceMac) = true) :
    ∃ target, status.authorizationAcls = some target ∧
      (∀ acl, acl ∈ target.add ↔ ∃ key ∈ deviceKeys deviceMac, acl = key.acl .allow ∧
        status.flag .allow key.operation = false) ∧
      ∀ acl, (∃ filter ∈ target.delete, filter.accepts acl = true) ↔
        ∃ key ∈ deviceKeys deviceMac, acl = key.acl .deny ∧
          status.flag .deny key.operation = true := by
  unfold RdfmDeviceWriteAuthorizationStatus.authorizationAcls
  rw [h.names hname, h.host]
  refine ⟨_, rfl, fun acl => ?_, fun acl => ?_⟩
  · rw [exists_deviceKeys]
    cases haw : status.allowWrite <;> cases hai : status.allowIdempotentWrite <;>
      simp [flag, deviceKey, Key.acl, haw, hai]
  · rw [exists_deviceKeys]
    cases hdw : status.denyWrite <;> cases hdi : status.denyIdempotentWrite <;>
      simp [flag, deviceKey, Key.acl, hdw, hdi, accepts_iff]

theorem Shows.deauthorizationAcls (h : Shows s deviceMac status)
    (hname : isTopicName (deviceMacToTopicName deviceMac) = true) :
    ∃ target, status.deauthorizationAcls = some target ∧
      ∀ acl, acl ∈ target.add ↔ ∃ key ∈ deviceKeys deviceMac, acl = key.acl .deny ∧
        status.flag .deny key.operation = false := by
  unfold RdfmDeviceWriteAuthorizationStatus.deauthorizationAcls
  rw [h.names hname, h.host]
  refine ⟨_, rfl, fun acl => ?_⟩
  rw [exists_deviceKeys]
  cases hdw : status.denyWrite <;> cases hdi : status.denyIdempotentWrite <;>
    simp [flag, deviceKey, Key.acl, hdw, hdi]

/-- The flag of a key says whether its entry is there. -/
theorem Shows.flag_iff (h : Shows s deviceMac status) {key : Key}
    (hkey : key ∈ deviceKeys deviceMac) (rule : Rule) :
    status.flag rule key.operation = true ↔ (rule, key) ∈ s.entries := by
  obtain ⟨op, hop, rfl⟩ := hkey
  exact h.flags rule op hop

theorem Shows.flag_eq_false_iff (h : Shows s deviceMac status) {key : Key}
    (hkey : key ∈ deviceKeys deviceMac) (rule : Rule) :
    status.flag rule key.operation = false ↔ (rule, key) ∉ s.entries := by
  rw [← h.flag_iff hkey, Bool.not_eq_true]

theorem Shows.canWrite (h : Shows s deviceMac status) :
    status.canWrite = true ↔ Permits s.entries (deviceKey deviceMac .write) := by
  unfold Permits
  rw [← h.flags .allow .write (by decide), ← h.flags .deny .write (by decide)]
  simp [RdfmDeviceWriteAuthorizationStatus.canWrite, flag]

theorem Shows.canIdempotentWrite (h : Shows s deviceMac status) :
    status.canIdempotentWrite = true ↔
      Permits s.entries (deviceKey deviceMac .idempotentWrite) := by
  unfold Permits
  rw [← h.flags .allow .idempotentWrite (by decide), ← h.flags .deny .idempotentWrite (by decide)]
  simp [RdfmDeviceWriteAuthorizationStatus.canIdempotentWrite, flag]

end Targets

/-! ## What the calls do -/

section Calls

variable {kafka : Kafka} {s : Cluster} {deviceMac : String}

theorem describeTopics_eq_none_iff {topicName : String} : s.describeTopics topicName = none ↔
    isTopicName topicName = true ∧ topicName ∈ s.topics := by
  unfold Cluster.describeTopics
  cases isTopicName topicName with
  | false => simp
  | true => by_cases h : topicName ∈ s.topics <;> simp [h]

theorem describeTopics_missing {topicName : String} (hname : isTopicName topicName = true)
    (h : topicName ∉ s.topics) : s.describeTopics topicName = some 3 := by
  simp [Cluster.describeTopics, hname, h]

/-- A lease of a topic that exists grants it. -/
theorem lease_existing (h : s.describeTopics (deviceMacToTopicName deviceMac) = none) :
    ∃ s', kafka.leaseTopicForDevice s deviceMac = (s', .ok (deviceMacToTopicName deviceMac)) ∧
      s'.topics = s.topics ∧ s'.entries = grant (deviceKeys deviceMac) s.entries ∧
      ((∀ key ∈ deviceKeys deviceMac, Permits s.entries key) → s' = s) := by
  have hname := (describeTopics_eq_none_iff.mp h).1
  obtain ⟨status, hstatus, hshows⟩ := @topicStatus_shows kafka s deviceMac
  obtain ⟨target, htarget, hadd, hdelete⟩ := hshows.authorizationAcls hname
  unfold Kafka.leaseTopicForDevice
  dsimp only
  rw [h, hstatus]
  dsimp only
  rw [htarget]
  refine ⟨_, rfl, rfl, ?_, fun hpermits => ?_⟩
  · refine eq_grant fun rule key => ?_
    rw [mem_entries_deleteAcls, mem_entries_createAcls, hadd, hdelete, exists_acl_iff,
      exists_acl_iff]
    have hallow : (key ∈ deviceKeys deviceMac ∧ status.flag .allow key.operation = false) ↔
        (key ∈ deviceKeys deviceMac ∧ (.allow, key) ∉ s.entries) :=
      and_congr_right fun hkey => hshows.flag_eq_false_iff hkey .allow
    have hdeny : (key ∈ deviceKeys deviceMac ∧ status.flag .deny key.operation = true) ↔
        (key ∈ deviceKeys deviceMac ∧ (.deny, key) ∈ s.entries) :=
      and_congr_right fun hkey => hshows.flag_iff hkey .deny
    rw [hallow, hdeny]
  · rw [createAcls_eq_self, deleteAcls_eq_self]
    · intro acl hacl hfilter
      obtain ⟨key, hkey, rfl, -⟩ := (hdelete acl).mp hfilter
      exact (hpermits key hkey).2 hacl
    · intro acl hacl
      obtain ⟨key, hkey, rfl, -⟩ := (hadd acl).mp hacl
      exact (hpermits key hkey).1

/-- A lease that creates the topic only allows it. -/
theorem lease_missing (hname : isTopicName (deviceMacToTopicName deviceMac) = true)
    (h : deviceMacToTopicName deviceMac ∉ s.topics)
    (hcreates : kafka.refuses s.topics (deviceMacToTopicName deviceMac) = none) :
    ∃ s', kafka.leaseTopicForDevice s deviceMac = (s', .ok (deviceMacToTopicName deviceMac)) ∧
      s'.topics = deviceMacToTopicName deviceMac :: s.topics ∧
      ∀ rule key, (rule, key) ∈ s'.entries ↔
        (rule, key) ∈ s.entries ∨ rule = .allow ∧ key ∈ deviceKeys deviceMac := by
  have hshows : Shows ⟨[], []⟩ deviceMac
      (initFromMacAndTopicName deviceMac (deviceMacToTopicName deviceMac)) :=
    initFromMac_shows fun key _ rule => List.not_mem_nil
  obtain ⟨target, htarget, hadd, -⟩ := hshows.authorizationAcls hname
  unfold Kafka.leaseTopicForDevice
  dsimp only
  rw [describeTopics_missing hname h, hcreates]
  dsimp only
  rw [htarget]
  refine ⟨_, rfl, rfl, fun rule key => ?_⟩
  rw [mem_entries_createAcls, hadd, exists_acl_iff]
  refine or_congr Iff.rfl (and_congr_right fun _ => and_iff_left_of_imp fun hkey => ?_)
  exact (hshows.flag_eq_false_iff hkey .allow).mpr List.not_mem_nil

theorem lease_refused (hname : isTopicName (deviceMacToTopicName deviceMac) = true)
    (h : deviceMacToTopicName deviceMac ∉ s.topics) {code : Int} {message : String}
    (hrefuses : kafka.refuses s.topics (deviceMacToTopicName deviceMac) = some (code, message)) :
    kafka.leaseTopicForDevice s deviceMac = (s, .error (.kafkaError code message)) := by
  simp only [Kafka.leaseTopicForDevice, describeTopics_missing hname h, hrefuses]

/-- A confiscation revokes the topic from a device that has an ACL on it. -/
theorem confiscate_existing (h : s.describeTopics (deviceMacToTopicName deviceMac) = none)
    (hacl : ∃ key ∈ deviceKeys deviceMac, ∃ rule, (rule, key) ∈ s.entries) :
    ∃ s', kafka.confiscateTopicFromDevice s deviceMac = (s', .ok ()) ∧ s'.topics = s.topics ∧
      s'.entries = revoke (deviceKeys deviceMac) s.entries ∧
      ((∀ key ∈ deviceKeys deviceMac, (.deny, key) ∈ s.entries) → s' = s) := by
  have hname := (describeTopics_eq_none_iff.mp h).1
  have hacls := (@writeAcls_ne_nil kafka s deviceMac).mpr hacl
  obtain ⟨status, hstatus, hshows⟩ := initFromAcls_shows hacls
  obtain ⟨target, htarget, hadd⟩ := hshows.deauthorizationAcls hname
  unfold Kafka.confiscateTopicFromDevice
  dsimp only
  rw [h, hstatus]
  dsimp only
  rw [htarget]
  refine ⟨_, rfl, rfl, ?_, fun hdenied => ?_⟩
  · refine eq_revoke fun rule key => ?_
    rw [mem_entries_createAcls, hadd, exists_acl_iff]
    exact or_congr Iff.rfl (and_congr_right fun _ => and_congr_right fun hkey =>
      hshows.flag_eq_false_iff hkey .deny)
  · refine createAcls_eq_self fun acl hacl => ?_
    obtain ⟨key, hkey, rfl, -⟩ := (hadd acl).mp hacl
    exact hdenied key hkey

/-- Without an ACL there is no status to change. -/
theorem confiscate_without_acls (h : s.describeTopics (deviceMacToTopicName deviceMac) = none)
    (hacl : ¬ ∃ key ∈ deviceKeys deviceMac, ∃ rule, (rule, key) ∈ s.entries) :
    kafka.confiscateTopicFromDevice s deviceMac = (s, .error .attributeError) := by
  have hempty : kafka.writeAcls s deviceMac (deviceMacToTopicName deviceMac) = [] :=
    not_not.mp (mt writeAcls_ne_nil.mp hacl)
  unfold Kafka.confiscateTopicFromDevice
  dsimp only
  rw [h, hempty]
  rfl

theorem deviceTopicStatus_shows (h : s.describeTopics (deviceMacToTopicName deviceMac) = none) :
    ∃ status, kafka.deviceTopicStatus s deviceMac = .ok (some status) ∧
      Shows s deviceMac status := by
  obtain ⟨status, hstatus, hshows⟩ := @topicStatus_shows kafka s deviceMac
  refine ⟨status, ?_, hshows⟩
  simp only [Kafka.deviceTopicStatus, h, hstatus, Except.map]

theorem key_notMem_deviceKeys {acl : ACL} (h : acl.principal ≠ "User:" ++ deviceMac ∨
    acl.resourcePattern ≠
      { resourceType := .topic, resourceName := deviceMacToTopicName deviceMac }) :
    acl.key ∉ deviceKeys deviceMac := by
  rintro ⟨op, -, hkey⟩
  rcases h with h | h
  · exact h (congrArg Key.principal hkey)
  · exact h (congrArg Key.resourcePattern hkey)

end Calls

/-! ## Runs -/

namespace Call

variable {kafka : Kafka} {s s' : Cluster} {deviceMac : String}

theorem serve_lease {topicName : String}
    (h : kafka.leaseTopicForDevice s deviceMac = (s', .ok topicName)) :
    (lease deviceMac).serve kafka s = (s', .ok ()) := by
  simp only [serve, h, Except.map]

/-- A lease that grants the topic does what it is for. -/
theorem does_of_grant (hserve : (lease deviceMac).serve kafka s = (s', .ok ()))
    (htopic : s'.describeTopics (deviceMacToTopicName deviceMac) = none)
    (hentries : s'.entries = grant (deviceKeys deviceMac) s.entries) :
    (lease deviceMac).Does kafka s := by
  have hnext : (lease deviceMac).next kafka s = s' := congrArg Prod.fst hserve
  have hpermits : ∀ key ∈ deviceKeys deviceMac, Permits s'.entries key := by
    intro key hkey
    rw [hentries]
    exact permits_grant hkey
  refine ⟨congrArg Prod.snd hserve, ?_, ?_, ?_⟩ <;> rw [hnext]
  · obtain ⟨status, hstatus, hshows⟩ := @deviceTopicStatus_shows kafka _ _ htopic
    obtain ⟨hwrite, hidempotent⟩ := forall_deviceKeys.mp hpermits
    exact ⟨status, hstatus, hshows.canWrite.mpr hwrite,
      hshows.canIdempotentWrite.mpr hidempotent⟩
  · intro acl hother
    rw [mem_acls_iff, hentries, mem_acls_iff]
    exact mem_grant_of_notMem (key_notMem_deviceKeys hother)
  · obtain ⟨s'', hagain, -, -, hsame⟩ := @lease_existing kafka s' deviceMac htopic
    have hserve' := congrArg Prod.fst (serve_lease hagain)
    exact hserve'.trans (hsame hpermits)

/-- A confiscation that revokes the topic does what it is for. -/
theorem does_of_revoke (hserve : (confiscate deviceMac).serve kafka s = (s', .ok ()))
    (htopic : s'.describeTopics (deviceMacToTopicName deviceMac) = none)
    (hentries : s'.entries = revoke (deviceKeys deviceMac) s.entries) :
    (confiscate deviceMac).Does kafka s := by
  have hnext : (confiscate deviceMac).next kafka s = s' := congrArg Prod.fst hserve
  have hdenied : ∀ key ∈ deviceKeys deviceMac, (.deny, key) ∈ s'.entries := by
    intro key hkey
    rw [hentries]
    exact .inr ⟨rfl, hkey⟩
  refine ⟨congrArg Prod.snd hserve, ?_, ?_, ?_⟩ <;> rw [hnext]
  · obtain ⟨status, hstatus, hshows⟩ := @deviceTopicStatus_shows kafka _ _ htopic
    have hpermits : ∀ key ∈ deviceKeys deviceMac, ¬ Permits s'.entries key := by
      intro key hkey
      rw [hentries]
      exact not_permits_revoke hkey
    obtain ⟨hwrite, hidempotent⟩ := forall_deviceKeys.mp hpermits
    exact ⟨status, hstatus, Bool.eq_false_iff.mpr (mt hshows.canWrite.mp hwrite),
      Bool.eq_false_iff.mpr (mt hshows.canIdempotentWrite.mp hidempotent)⟩
  · intro acl hother
    rw [mem_acls_iff, hentries, mem_acls_iff]
    exact mem_revoke_of_notMem (key_notMem_deviceKeys hother)
  · obtain ⟨s'', hagain, -, -, hsame⟩ := @confiscate_existing kafka s' deviceMac htopic
      ⟨_, ⟨.write, by decide, rfl⟩, .deny, hdenied _ ⟨.write, by decide, rfl⟩⟩
    exact (congrArg Prod.fst hagain).trans (hsame hdenied)

theorem lease_does_iff (hname : isTopicName (deviceMacToTopicName deviceMac) = true) :
    (lease deviceMac).Does kafka s ↔ (lease deviceMac).Met kafka s := by
  by_cases htopic : deviceMacToTopicName deviceMac ∈ s.topics
  · -- A topic that exists is granted, whatever ACLs it has.
    have hexists := describeTopics_eq_none_iff.mpr ⟨hname, htopic⟩
    obtain ⟨s', hserve, htopics, hentries, -⟩ := @lease_existing kafka s deviceMac hexists
    refine iff_of_true (does_of_grant (serve_lease hserve) ?_ hentries) fun h => absurd htopic h
    exact describeTopics_eq_none_iff.mpr ⟨hname, htopics ▸ htopic⟩
  · cases hrefuses : kafka.refuses s.topics (deviceMacToTopicName deviceMac) with
    | some err =>
      refine iff_of_false (fun h => ?_) fun h => ?_
      · have hserve := h.succeeds
        rw [serve, lease_refused hname htopic hrefuses] at hserve
        cases hserve
      · have hcreates := (h htopic).1
        rw [hrefuses] at hcreates
        cases hcreates
    | none =>
      obtain ⟨s', hserve, htopics, hentries⟩ := lease_missing hname htopic hrefuses
      have hexists : s'.describeTopics (deviceMacToTopicName deviceMac) = none :=
        describeTopics_eq_none_iff.mpr ⟨hname, htopics ▸ List.mem_cons_self⟩
      constructor
      · intro h _
        refine ⟨hrefuses, ?_⟩
        have hnext : (lease deviceMac).next kafka s = s' := congrArg Prod.fst (serve_lease hserve)
        obtain ⟨status, hstatus, hwrite, hidempotent⟩ := h.status
        obtain ⟨status', hstatus', hshows⟩ := @deviceTopicStatus_shows kafka _ _ hexists
        rw [hnext] at hstatus
        cases hstatus.symm.trans hstatus'
        have hpermits := forall_deviceKeys.mpr
          ⟨hshows.canWrite.mp hwrite, hshows.canIdempotentWrite.mp hidempotent⟩
        intro key hkey hdeny
        exact (hpermits key hkey).2 ((hentries .deny key).mpr (.inl hdeny))
      · intro h
        refine does_of_grant (serve_lease hserve) hexists ?_
        ext ⟨rule, key⟩
        rw [hentries, mem_grant_of_notDenied (h htopic).2]

theorem confiscate_does_iff (htopic : s.describeTopics (deviceMacToTopicName deviceMac) = none) :
    (confiscate deviceMac).Does kafka s ↔ (confiscate deviceMac).Met kafka s := by
  by_cases hacl : ∃ key ∈ deviceKeys deviceMac, ∃ rule, (rule, key) ∈ s.entries
  · obtain ⟨s', hserve, htopics, hentries, -⟩ := @confiscate_existing kafka s deviceMac htopic hacl
    refine iff_of_true (does_of_revoke hserve ?_ hentries) hacl
    rw [describeTopics_eq_none_iff, htopics]
    exact describeTopics_eq_none_iff.mp htopic
  · refine iff_of_false (fun h => ?_) hacl
    have hserve := h.succeeds
    rw [serve, confiscate_without_acls htopic hacl] at hserve
    cases hserve

end Call

/-- **Topic leases.** Along every run of leases and confiscations, from any cluster, each call on a
topic does what it is for, exactly if each of them is met. -/
theorem topic_leases_iff (kafka : Kafka) (s : Cluster) (calls : List Call) :
    Along (Call.next kafka) (fun s call => call.OnTopic s → call.Does kafka s) s calls ↔
      Along (Call.next kafka) (fun s call => call.OnTopic s → call.Met kafka s) s calls := by
  refine Along.iff_of_invariant (fun s call (_ : True) => ⟨?_, fun _ => trivial⟩) trivial
  refine forall_congr' fun htopic => ?_
  cases call with
  | lease deviceMac => exact Call.lease_does_iff htopic
  | confiscate deviceMac => exact Call.confiscate_does_iff htopic

namespace ListedKafka

/-- A cluster that lists its ACLs in their order and creates every topic. -/
def kafka : Kafka where
  describeAcls acls filter := acls.filter filter.accepts
  mem_describeAcls _ _ _ := List.mem_filter
  refuses _ _ := none

/-- The topic exists, without ACLs. -/
def bare : Cluster := ⟨["00-00-00-00-00-00"], []⟩

/-- The device is denied, and there is no topic yet. -/
def denied : Cluster :=
  ⟨[], [(deviceKey "00:00:00:00:00:00" .write).acl .deny]⟩

end ListedKafka

open ListedKafka in
/-- The topic of a device without ACLs cannot be confiscated; and a device that is denied cannot
write after a lease that creates its topic. -/
theorem leases_without_effect :
    (Call.confiscate "00:00:00:00:00:00").OnTopic bare ∧
      kafka.confiscateTopicFromDevice bare "00:00:00:00:00:00" = (bare, .error .attributeError) ∧
      (kafka.leaseTopicForDevice denied "00:00:00:00:00:00").2 = .ok "00-00-00-00-00-00" ∧
      (kafka.deviceTopicStatus (kafka.leaseTopicForDevice denied "00:00:00:00:00:00").1
        "00:00:00:00:00:00").map (fun status => status.map (·.canWrite)) = .ok (some false) ∧
      ¬ Along (Call.next kafka) (fun s call => call.OnTopic s → call.Does kafka s) bare
        [.confiscate "00:00:00:00:00:00"] := by
  have htopic : (Call.confiscate "00:00:00:00:00:00").OnTopic bare := by
    unfold Call.OnTopic
    decide +kernel
  have hfails : kafka.confiscateTopicFromDevice bare "00:00:00:00:00:00" =
      (bare, .error .attributeError) := by
    rfl
  refine ⟨htopic, hfails, rfl, rfl, ?_⟩
  rintro ⟨h, -⟩
  have hsucceeds := (h htopic).succeeds
  rw [Call.serve, hfails] at hsucceeds
  cases hsucceeds

end Rdfm.Server.Pubsub
