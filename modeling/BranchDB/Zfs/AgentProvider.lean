/-
# `BranchDB.Zfs.AgentProvider` — the provider that runs the `zfs` command

`internal/infrastructure/zfs/agent_provider.go`.  Everything the provider does to the host
it does through calls (`OsCall`), so its methods are programs over them; what the calls do
is said in `BranchDB.Zfs.Machine`.

    TakeSnapshot   [destroy ds@name → rename ds@name if it has clones] → snapshot ds@name
    CreateClone    clone → share → [get sharenfs → destroy -f what was just cloned]
    DeleteClone    unshare → destroy -f → [nfsd threads to 0 → destroy -f → threads back]
    GCSnapshots    list → for each prefix the archives beyond the newest: get clones → destroy

Names are the strings the agent is given; nothing is checked about them here.  Which order a
`for range` over a map takes is a call as well (`visit`).
-/
import BranchDB.Clock
import BranchDB.Concur.Prog
import BranchDB.Domain
import BranchDB.Zfs.Pool

namespace BranchDB

open Concur Strings Zfs

/-- What the provider asks of the host it runs on. -/
inductive OsCall
  | zfs (c : Command)
  /-- `hostname -I` -/
  | hostname
  /-- The contents of `/proc/fs/nfsd/threads`. -/
  | readThreads
  | writeThreads (n : Int)
  /-- `time.Now()` -/
  | now
  /-- The order in which the keys of a map are visited. -/
  | visit (keys : List String)
deriving DecidableEq, Repr

abbrev OsCall.Reply : OsCall → Type
  | .zfs _ => Output
  | .hostname | .readThreads => Except GoError String
  | .writeThreads _ => Except GoError Unit
  | .now => Time
  | .visit _ => List String

abbrev Os (α : Type) : Type := Prog OsCall OsCall.Reply α

def os (c : OsCall) : Os c.Reply := Prog.perform c

def zfs (c : Command) : Os Output := os (.zfs c)

/-- `run`: only whether the command failed, and with what output. -/
def run (c : Command) : Os (Except GoError Unit) := do
  let out ← zfs c
  match out.err with
  | none => return .ok ()
  | some err =>
    return .error (errorf ("zfs [" ++ " ".intercalate c.args ++ "]: " ++ err ++ "\n" ++
      out.combined))

/-- `zfsagent.ErrNotFound`. -/
def errNotFound : GoError := ⟨.notFound, "not found"⟩

structure AgentProvider where
  /-- `pool/dataset` -/
  dataset : String
deriving DecidableEq, Repr

namespace AgentProvider

variable (p : AgentProvider)

def snapshotPath (name : String) : String := p.dataset ++ "@" ++ name

def clonePath (cloneName : String) : String := p.dataset ++ "/branches/" ++ cloneName

/-! ## Snapshots -/

def errDestroy (err output : String) : GoError :=
  errorf ("zfs destroy snapshot: " ++ err ++ " (output: " ++ output ++ ")")

/-- The snapshot under the name has clones: it is renamed, so that they keep their origin. -/
def archive (name : String) : Os (Except GoError Unit) := do
  let t : Time ← os .now
  match ← run (.rename (p.snapshotPath name) (p.snapshotPath (name ++ "-" ++ t.stamp))) with
  | .error renameErr => return .error (renameErr.wrap "zfs rename snapshot")
  | .ok () => return .ok ()

/-- The first half of an overwrite: nothing is to be left under the name. -/
def makeRoom (name : String) : Os (Except GoError Unit) := do
  let out ← zfs (.destroy false (p.snapshotPath name))
  match out.err with
  | none => return .ok ()
  | some err =>
    let outStr := trimSpace out.combined
    if contains outStr "dataset does not exist" then return .ok ()
    else if contains outStr "has dependent clones" then p.archive name
    else return .error (errDestroy err outStr)

def takeSnapshot (name : String) (overwrite : Bool) : Os (Except GoError Unit) :=
  if overwrite then do
    match ← p.makeRoom name with
    | .error err => return .error err
    | .ok () => run (.snapshot (p.snapshotPath name))
  else run (.snapshot (p.snapshotPath name))

def deleteSnapshot (name : String) : Os (Except GoError Unit) := do
  let out ← zfs (.destroy false (p.snapshotPath name))
  match out.err with
  | none => return .ok ()
  | some err =>
    let outStr := trimSpace out.combined
    if contains outStr "dataset does not exist" then return .error errNotFound
    else if contains outStr "has dependent clones" then
      return .error (errorf ("snapshot " ++ quote name ++
        " has dependent clones (delete all branches using this snapshot first)"))
    else return .error (errDestroy err outStr)

/-- One line of the listing: a name, and when it was created. -/
def parseSnapshotLine (dataset text : String) : Option SnapshotInfo :=
  match fields (trimSpace text) with
  | fullName :: x :: rest => some
      { name := trimPrefix fullName (dataset ++ "@")
        createdAt := parseCreation (" ".intercalate (x :: rest))
        databaseType := "" }
  | _ => none

def parseSnapshotList (out dataset : String) : List SnapshotInfo :=
  (scanLines out).filterMap (parseSnapshotLine dataset)

def listSnapshots : Os (Except GoError (List SnapshotInfo)) := do
  let out ← zfs (.listSnapshots p.dataset)
  match out.err with
  | some err => return .error (errorf ("zfs list snapshots: " ++ err))
  | none => return .ok (parseSnapshotList out.stdout p.dataset)

/-! ## Clones -/

/-- `localIP`: the first address of the host, none if there is none. -/
def localIP : Os (Option String) := do
  let out : Except GoError String ← os .hostname
  match out with
  | .error _ => return none
  | .ok out => return (fields out).head?

def errShare (target : String) (err : GoError) : GoError :=
  errorf ("zfs share " ++ target ++ ": " ++ err.msg ++ "\n" ++
    "ZFS サーバーで NFS 共有を有効化してください:\n" ++
    "  zfs set sharenfs=\"rw=@<k8s-pod-cidr>,no_root_squash\" " ++ p.dataset)

/-- The clone was shared, or was already: where to find it. -/
def shared (cloneName : String) : Os (Except GoError VolumeInfo) := do
  let nfsServer ← localIP
  return .ok
    { cloneName
      nfsServer := nfsServer.getD "127.0.0.1"
      nfsPath := "/" ++ p.clonePath cloneName }

/-- The clone could not be shared, and is not: what this call created is taken back. -/
def unshared (target : String) (created : Bool) (err : GoError) :
    Os (Except GoError VolumeInfo) := do
  if created then
    let _ ← run (.destroy true target)
    return .error (p.errShare target err)
  else return .error (p.errShare target err)

/-- The second half of `CreateClone`; `created` says that it was not there before. -/
def exportClone (cloneName : String) (created : Bool) : Os (Except GoError VolumeInfo) := do
  let target := p.clonePath cloneName
  match ← run (.share target) with
  | .ok () => p.shared cloneName
  | .error err => do
    let out ← zfs (.getSharenfs target)
    if out.err ≠ none ∨ trimSpace out.stdout = "off" then p.unshared target created err
    else p.shared cloneName

def errClone (snapFull target err out : String) : GoError :=
  errorf ("zfs clone " ++ snapFull ++ " -> " ++ target ++ ": " ++ err ++ "\n" ++ out)

def createClone (snapshot cloneName : String) : Os (Except GoError VolumeInfo) := do
  let snapFull := p.snapshotPath snapshot
  let target := p.clonePath cloneName
  let out ← zfs (.clone snapFull target)
  match out.err with
  | none => p.exportClone cloneName true
  | some err =>
    if contains out.combined "dataset already exists" then p.exportClone cloneName false
    else return .error (errClone snapFull target err out.combined)

/-- `readNFSDThreads`: the default stands for what cannot be read or makes no sense. -/
def readNFSDThreads : Os Int := do
  let b : Except GoError String ← os .readThreads
  match b with
  | .error _ => return 8
  | .ok b =>
    match atoi (trimSpace b) with
    | none => return 8
    | some n => return if n ≤ 0 then 8 else n

def writeNFSDThreads (n : Int) : Os (Except GoError Unit) := os (.writeThreads n)

/-- With no nfsd threads running nothing keeps the clone busy. -/
def releaseNFSAndDestroy (target : String) : Os (Except GoError Unit) := do
  let prev ← readNFSDThreads
  match ← writeNFSDThreads 0 with
  | .error err => return .error (err.wrap "stop nfsd threads")
  | .ok () => do
    let out ← zfs (.destroy true target)
    let _ ← writeNFSDThreads prev
    let _ ← zfs .shareAll
    match out.err with
    | none => return .ok ()
    | some err => return .error (errorf err)

def deleteClone (cloneName : String) : Os (Except GoError Unit) := do
  let target := p.clonePath cloneName
  let _ ← zfs (.unshare target)
  let out ← zfs (.destroy true target)
  match out.err with
  | none => return .ok ()
  | some err =>
    if contains out.combined "dataset does not exist" then return .error errNotFound
    else if ¬ contains out.combined "busy" then
      return .error (errorf ("zfs destroy " ++ target ++ ": " ++ err ++ "\n" ++ out.combined))
    else match ← releaseNFSAndDestroy target with
      | .error rerr => return .error (rerr.wrap ("zfs destroy " ++ target ++ " (nfsd release)"))
      | .ok () => return .ok ()

/-- The last component of a path. -/
def lastComponent (name : String) : String :=
  String.ofList ((name.toList.splitOn '/').getLastD [])

def listClones : Os (Except GoError (List VolumeInfo)) := do
  let branchesDataset := p.dataset ++ "/branches"
  let out ← zfs (.listTree branchesDataset)
  match out.err with
  | some _ => return .ok []
  | none => do
    let nfsServer ← localIP
    let names := ((scanLines out.stdout).map trimSpace).filter (· ≠ branchesDataset)
    return .ok (names.map fun name =>
      { cloneName := lastComponent name
        nfsServer := nfsServer.getD "127.0.0.1"
        nfsPath := "/" ++ name })

def getClone (cloneName : String) : Os (Except GoError VolumeInfo) := do
  let target := p.clonePath cloneName
  let out ← zfs (.list target)
  if out.err ≠ none ∨ trimSpace out.stdout = "" then return .error errNotFound
  else p.shared cloneName

/-! ## Garbage collection -/

def isAllDigits (s : List Char) : Bool := s.all (fun c => '0' ≤ c ∧ c ≤ '9') ∧ 0 < s.length

/-- What is before `-YYYYMMDD-HHMMSS`, if a name ends like that; what it ends in are ASCII
characters, so characters do for bytes. -/
def archivePrefix (name : String) : Option String :=
  let cs := name.toList
  let suffix := cs.drop (cs.length - 16)
  if 16 ≤ cs.length ∧ suffix[0]? = some '-' ∧ suffix[9]? = some '-' ∧
      isAllDigits ((suffix.drop 1).take 8) ∧ isAllDigits ((suffix.drop 10).take 6) then
    some (String.ofList (cs.take (cs.length - 16)))
  else none

/-- `groups[prefix] = append(groups[prefix], s)`. -/
def addToGroup (groups : List (String × List SnapshotInfo)) (key : String) (s : SnapshotInfo) :
    List (String × List SnapshotInfo) :=
  match groups with
  | [] => [(key, [s])]
  | g :: gs => if g.1 = key then (key, g.2 ++ [s]) :: gs else g :: addToGroup gs key s

def addArchive (groups : List (String × List SnapshotInfo)) (s : SnapshotInfo) :
    List (String × List SnapshotInfo) :=
  match archivePrefix s.name with
  | some key => addToGroup groups key s
  | none => groups

/-- The archives, grouped by what they are archives of. -/
def archiveGroups (snaps : List SnapshotInfo) : List (String × List SnapshotInfo) :=
  snaps.foldl addArchive []

/-- The inner loop of the sort: the newest of all comes to the front, each that is newer than
the one in front changing places with it. -/
def exchange (front : SnapshotInfo) : List SnapshotInfo → SnapshotInfo × List SnapshotInfo
  | [] => (front, [])
  | s :: rest =>
    if s.createdAt.after front.createdAt then
      ((exchange s rest).1, front :: (exchange s rest).2)
    else ((exchange front rest).1, s :: (exchange front rest).2)

/-- The outer loop, for so many positions. -/
def sortFrom : Nat → List SnapshotInfo → List SnapshotInfo
  | n + 1, s :: rest => (exchange s rest).1 :: sortFrom n (exchange s rest).2
  | _, snaps => snaps

def sortSnapshotsByCreatedAtDesc (snaps : List SnapshotInfo) : List SnapshotInfo :=
  sortFrom snaps.length snaps

/-- The loop over the archives that are too many; an archive that has clones is passed over,
and one that cannot be destroyed as well. -/
def collect : List SnapshotInfo → Os (List String)
  | [] => return []
  | s :: rest => do
    let out ← zfs (.getClones (p.snapshotPath s.name))
    if trimSpace out.stdout ≠ "" ∧ trimSpace out.stdout ≠ "-" then collect rest
    else match ← p.deleteSnapshot s.name with
      | .error _ => collect rest
      | .ok () => do
        let deleted ← collect rest
        return s.name :: deleted

/-- The loop over the groups. -/
def collectGroups (keep : Nat) (groups : List (String × List SnapshotInfo)) :
    List String → Os (List String)
  | [] => return []
  | key :: keys => do
    let archives := sortSnapshotsByCreatedAtDesc ((groups.lookup key).getD [])
    let deleted ← p.collect (archives.drop keep)
    let more ← collectGroups keep groups keys
    return deleted ++ more

def errBounds : GoError := errorf "runtime error: slice bounds out of range"

/-- A number of archives to keep that is negative panics where there are archives. -/
def gcSnapshots (keepCount : Int) : Os (Except GoError (List String)) := do
  match ← p.listSnapshots with
  | .error err => return .error err
  | .ok snaps => do
    let groups := archiveGroups snaps
    let keys : List String ← os (.visit (groups.map (·.1)))
    if keepCount < 0 ∧ groups ≠ [] then return .error errBounds
    else do
      let deleted ← p.collectGroups keepCount.toNat groups keys
      return .ok deleted

/-! ## Reset -/

def resetClones : List VolumeInfo → Os (Except GoError Unit)
  | [] => return .ok ()
  | c :: rest => do
    match ← p.deleteClone c.cloneName with
    | .error err => return .error (err.wrap ("reset: delete clone " ++ quote c.cloneName))
    | .ok () => resetClones rest

def resetSnapshots : List SnapshotInfo → Os (Except GoError Unit)
  | [] => return .ok ()
  | s :: rest => do
    match ← p.deleteSnapshot s.name with
    | .error err => return .error (err.wrap ("reset: delete snapshot " ++ quote s.name))
    | .ok () => resetSnapshots rest

def resetDataset : Os (Except GoError Unit) := do
  match ← p.listClones with
  | .error err => return .error (err.wrap "reset: list clones")
  | .ok clones => do
    match ← p.resetClones clones with
    | .error err => return .error err
    | .ok () => do
      match ← p.listSnapshots with
      | .error err => return .error (err.wrap "reset: list snapshots")
      | .ok snaps => p.resetSnapshots snaps

end AgentProvider

end BranchDB
