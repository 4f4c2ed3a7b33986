/-
# `BranchDB.K8sDatabase.Provider` — a branch database as five Kubernetes objects

`internal/infrastructure/k8sdatabase/provider.go`, call by call.  `Start` creates a
PersistentVolume on the branch's NFS export, a PersistentVolumeClaim, for some
database types a ConfigMap, the Pod and a NodePort Service, taking an object that
already exists for its own; `Stop` deletes the five and reports success whatever
the deletions answered.  Everything is written over an arbitrary monad in which
the client's calls are answered.
-/
import BranchDB.Concur.Prog
import BranchDB.K8sDatabase.Cluster

namespace BranchDB.K8s

/-- The mount options every branch volume is mounted with. -/
def nfsMountOptions : List String :=
  ["hard", "proto=tcp", "nfsvers=4.1", "rsize=1048576", "wsize=1048576", "timeo=600", "retrans=2"]

/-- `resource.MustParse("10Gi")`. -/
def tenGi : Nat := 10 * 2 ^ 30

/-- `dbConfig`: what is fixed for a database type. -/
structure DbConfig where
  defaultImage : String
  port : Int
  dataDir : String
  containerEnv : List EnvVar := []
  containerArgs : List String := []
  readinessCmd : List String
  needsPermFix : Bool := false
  permFixUID : Int := 0
  extraConfig : String := ""
  extraConfigMountPath : String := ""
  extraConfigKey : String := ""
deriving DecidableEq, Repr

def mysqlConfig : DbConfig where
  defaultImage := "mysql:8.0"
  port := 3306
  dataDir := "/var/lib/mysql"
  containerEnv := [⟨"MYSQL_ALLOW_EMPTY_PASSWORD", "yes"⟩]
  readinessCmd := ["mysqladmin", "ping", "-h", "localhost"]
  needsPermFix := true
  permFixUID := 999
  extraConfig := "[mysqld]\ninnodb_flush_log_at_trx_commit=2\n"
  extraConfigMountPath := "/etc/mysql/conf.d"
  extraConfigKey := "branchdb.cnf"

def postgresConfig : DbConfig where
  defaultImage := "postgres:16"
  port := 5432
  dataDir := "/var/lib/postgresql/data"
  containerEnv := [⟨"POSTGRES_HOST_AUTH_METHOD", "trust"⟩]
  readinessCmd := ["pg_isready", "-U", "postgres"]
  needsPermFix := true
  permFixUID := 999
  containerArgs := ["-c", "fsync=off", "-c", "synchronous_commit=off", "-c", "full_page_writes=off"]

def redisConfig : DbConfig where
  defaultImage := "redis:7"
  port := 6379
  dataDir := "/data"
  readinessCmd := ["redis-cli", "ping"]
  needsPermFix := false

/-- `builtinConfigs`. -/
def builtinConfigs (dbType : String) : Option DbConfig :=
  if dbType = "mysql" then some mysqlConfig
  else if dbType = "postgres" then some postgresConfig
  else if dbType = "redis" then some redisConfig
  else none

/-- `Provider`; `imageOverrides` maps a database type to an image, "" meaning the default. -/
structure Provider (m : Type → Type) where
  client : (c : Call) → m c.Reply
  ns : String
  imageOverrides : List (String × String) := []

/-! ## Names -/

def pvName (branchName : String) : String := "branchdb-pv-" ++ branchName
def pvcName (branchName : String) : String := "branchdb-pvc-" ++ branchName
def podName (branchName : String) : String := "branchdb-db-" ++ branchName
def cmName (branchName : String) : String := "branchdb-cfg-" ++ branchName

def pvKey (branchName : String) : Key := ⟨.persistentVolume, "", pvName branchName⟩
def pvcKey (ns branchName : String) : Key := ⟨.persistentVolumeClaim, ns, pvcName branchName⟩
def cmKey (ns branchName : String) : Key := ⟨.configMap, ns, cmName branchName⟩
def podKey (ns branchName : String) : Key := ⟨.pod, ns, podName branchName⟩
def serviceKey (ns branchName : String) : Key := ⟨.service, ns, branchName⟩

/-- The keys of a branch's objects, in the order `Stop` deletes them. -/
def branchKeys (ns branchName : String) : List Key :=
  [serviceKey ns branchName, podKey ns branchName, cmKey ns branchName, pvcKey ns branchName,
    pvKey branchName]

/-! ## The image -/

/-- The part before the last `:`, or the whole name. -/
def baseImageName (image : String) : String :=
  match image.toList.reverse.dropWhile (· ≠ ':') with
  | [] => image
  | _ :: base => String.ofList base.reverse

/-- `resolveImage`: the version asked for, else the override, else the default. -/
def resolveImage (imageOverrides : List (String × String)) (cfg : DbConfig)
    (dbType dbVersion : String) : String :=
  if dbVersion ≠ "" then baseImageName cfg.defaultImage ++ ":" ++ dbVersion
  else match imageOverrides.lookup dbType with
    | some override => if override ≠ "" then override else cfg.defaultImage
    | none => cfg.defaultImage

/-! ## The objects -/

def pvObject (branchName : String) (vol : VolumeInfo) : Object where
  key := pvKey branchName
  spec := .persistentVolume
    { capacity := tenGi
      accessModes := [.readWriteOnce]
      mountOptions := nfsMountOptions
      storageClassName := ""
      nfsServer := vol.nfsServer
      nfsPath := vol.nfsPath }

def pvcObject (ns branchName : String) : Object where
  key := pvcKey ns branchName
  spec := .persistentVolumeClaim
    { accessModes := [.readWriteOnce], storageClassName := some "", requests := tenGi }

def cmObject (ns branchName : String) (cfg : DbConfig) : Object where
  key := cmKey ns branchName
  spec := .configMap [(cfg.extraConfigKey, cfg.extraConfig)]

/-- The init container that hands the data directory to the database user. -/
def fixPermissions (cfg : DbConfig) : Container where
  name := "fix-permissions"
  image := "busybox:1.36"
  command := ["sh", "-c",
    "chown -R " ++ toString cfg.permFixUID ++ ":" ++ toString cfg.permFixUID ++ " " ++ cfg.dataDir]
  runAsUser := some 0
  volumeMounts := [⟨"db-data", cfg.dataDir⟩]

def podSpec (branchName image : String) (cfg : DbConfig) : PodSpec where
  initContainers := if cfg.needsPermFix then [fixPermissions cfg] else []
  containers :=
    [{ name := "db"
       image := image
       args := cfg.containerArgs
       env := cfg.containerEnv
       volumeMounts := ⟨"db-data", cfg.dataDir⟩ ::
         (if cfg.extraConfig ≠ "" then [⟨"db-config", cfg.extraConfigMountPath⟩] else [])
       readinessProbe := some ⟨cfg.readinessCmd, 10, 5⟩ }]
  volumes := ⟨"db-data", .persistentVolumeClaim (pvcName branchName)⟩ ::
    (if cfg.extraConfig ≠ "" then [⟨"db-config", .configMap (cmName branchName)⟩] else [])

def podObject (ns branchName image : String) (cfg : DbConfig) : Object where
  key := podKey ns branchName
  labels := [("branchdb-branch", branchName)]
  spec := .pod (podSpec branchName image cfg)

def serviceObject (ns branchName : String) (port : Int) : Object where
  key := serviceKey ns branchName
  spec := .service
    { type := .nodePort
      selector := [("branchdb-branch", branchName)]
      ports := [{ port := port, targetPort := port }] }

@[simp] theorem pvObject_key (branchName : String) (vol : VolumeInfo) :
    (pvObject branchName vol).key = pvKey branchName := rfl

@[simp] theorem pvcObject_key (ns branchName : String) :
    (pvcObject ns branchName).key = pvcKey ns branchName := rfl

@[simp] theorem cmObject_key (ns branchName : String) (cfg : DbConfig) :
    (cmObject ns branchName cfg).key = cmKey ns branchName := rfl

@[simp] theorem podObject_key (ns branchName image : String) (cfg : DbConfig) :
    (podObject ns branchName image cfg).key = podKey ns branchName := rfl

@[simp] theorem serviceObject_key (ns branchName : String) (port : Int) :
    (serviceObject ns branchName port).key = serviceKey ns branchName := rfl

/-! ## Start and Stop -/

section

variable {m : Type → Type} [Monad m] (p : Provider m)

/-- Create, taking an object that already exists for the one to be created. -/
def createIfAbsent (o : Object) : m (Except GoError Unit) := do
  return ignoreAlreadyExists (← p.client (.create o))

def createPV (branchName : String) (vol : VolumeInfo) : m (Except GoError Unit) :=
  createIfAbsent p (pvObject branchName vol)

def createPVC (branchName : String) : m (Except GoError Unit) :=
  createIfAbsent p (pvcObject p.ns branchName)

def createConfigMap (branchName : String) (cfg : DbConfig) : m (Except GoError Unit) :=
  createIfAbsent p (cmObject p.ns branchName cfg)

/-- The ConfigMap, for the types that have extra configuration. -/
def createExtraConfig (branchName : String) (cfg : DbConfig) : m (Except GoError Unit) :=
  if cfg.extraConfig ≠ "" then createConfigMap p branchName cfg else return .ok ()

def createPod (branchName image : String) (cfg : DbConfig) : m (Except GoError Unit) :=
  createIfAbsent p (podObject p.ns branchName image cfg)

def createService (branchName : String) (port : Int) : m (Except GoError Unit) :=
  createIfAbsent p (serviceObject p.ns branchName port)

/-- The first node port assigned in `ports`. -/
def firstNodePort (ports : List ServicePort) : Option Int :=
  (ports.find? (·.nodePort > 0)).map (·.nodePort)

/-- The node port of a Service, once it has one. -/
def assignedNodePort (branchName : String) (svc : ServiceSpec) : Except GoError Int :=
  match firstNodePort svc.ports with
  | some port => .ok port
  | none => .error (errorf ("NodePort not yet assigned for service " ++ branchName))

def getNodePort (branchName : String) : m (Except GoError Int) := do
  match ← p.client (.getService (serviceKey p.ns branchName)) with
  | .error err => return .error (err.wrap "get service")
  | .ok svc => return assignedNodePort branchName svc

/-- `if err := step; err != nil { return fmt.Errorf("<context>: %w", err) }`, and go on. -/
def checked {α : Type} (context : String) (step : m (Except GoError Unit))
    (next : m (Except GoError α)) : m (Except GoError α) := do
  match ← step with
  | .error err => return .error (err.wrap context)
  | .ok () => next

/-- The endpoint of a branch whose objects are there. -/
def getEndpoint (branchName : String) (cfg : DbConfig) : m (Except GoError BranchEndpoint) := do
  match ← getNodePort p branchName with
  | .error err => return .error (err.wrap "get NodePort")
  | .ok nodePort =>
    return .ok
      { host := branchName ++ "." ++ p.ns ++ ".svc.cluster.local"
        port := cfg.port
        externalPort := nodePort }

/-- The tail of `Start`, once the database type is known to be supported. -/
def startConfigured (branchName : String) (vol : VolumeInfo) (image : String) (cfg : DbConfig) :
    m (Except GoError BranchEndpoint) :=
  checked "create PV" (createPV p branchName vol) <|
  checked "create PVC" (createPVC p branchName) <|
  checked "create ConfigMap" (createExtraConfig p branchName cfg) <|
  checked "create Pod" (createPod p branchName image cfg) <|
  checked "create Service" (createService p branchName cfg.port) <|
  getEndpoint p branchName cfg

/-- An empty database type is MySQL. -/
def defaultType (dbType : String) : String := if dbType = "" then "mysql" else dbType

def start (branchName : String) (vol : VolumeInfo) (dbType dbVersion : String) :
    m (Except GoError BranchEndpoint) :=
  let dbType := defaultType dbType
  match builtinConfigs dbType with
  | none => return .error (errorf ("unsupported database type: " ++ quote dbType ++
      " (supported: mysql, postgres, redis)"))
  | some cfg =>
    startConfigured p branchName vol (resolveImage p.imageOverrides cfg dbType dbVersion) cfg

/-- `Stop` ignores the answer of every Delete. -/
def stop (branchName : String) : m (Except GoError Unit) := do
  let _ ← p.client (.delete (serviceKey p.ns branchName))
  let _ ← p.client (.delete (podKey p.ns branchName))
  let _ ← p.client (.delete (cmKey p.ns branchName))
  let _ ← p.client (.delete (pvcKey p.ns branchName))
  let _ ← p.client (.delete (pvKey branchName))
  return .ok ()

/-- Delete one object after the other, whatever is answered. -/
def deleteEach : List Key → m (Except GoError Unit)
  | [] => return .ok ()
  | k :: ks => do
    let _ ← p.client (.delete k)
    deleteEach ks

theorem stop_eq_deleteEach (branchName : String) :
    stop p branchName = deleteEach p (branchKeys p.ns branchName) := rfl

/-- `Provider` implements `domain.BranchDatabaseProvider`. -/
def Provider.database : BranchDatabaseProvider m
  | .start branch vol dbType dbVersion => start p branch vol dbType dbVersion
  | .stop branch => stop p branch

end

theorem only_checked {E : Type} {R : E → Type} {P : E → Prop} {α : Type} {context : String}
    {step : Concur.Prog E R (Except GoError Unit)} {next : Concur.Prog E R (Except GoError α)}
    (hstep : step.Only P) (hnext : next.Only P) : (checked context step next).Only P := by
  refine .bind hstep ?_
  intro r
  rcases r with err | ⟨⟩
  · exact .ret
  · exact hnext

end BranchDB.K8s
