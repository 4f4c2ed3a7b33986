/-
# `BranchDB.ZfsAgent.Default` — the dataset of a request that names no type

`NewHandler` takes the first key of a map for the default type.  A Go map has no first key:
each time the agent starts, its iteration may take another order, and begin with any key.  So
nothing holds of the default but what holds of every type; in particular it need not be the
`mysql` that `Start` takes an empty type for, and a clone that was made without a type is
looked for in another dataset once the agent has been restarted.

Two agents are started with the same providers if their keys are the same up to order.
-/
import BranchDB.K8sDatabase.Provider
import BranchDB.ZfsAgent.Isolation
import BranchDB.Zfs.AgentProvider

namespace BranchDB.ZfsAgent

open Concur Net

/-- Requests without a type go to one dataset, whichever way the agent is started; to that of
MySQL if there is one; and a clone is looked for where it was made. -/
structure DefaultStable (keys : List String) (ds : String → AgentProvider) : Prop where
  restart {before after : List String} {token : String} {r : Request} {i i' : Invocation} :
    before.Perm keys → after.Perm keys → r.dbType = [] →
      (serveHTTP (agent before token) r).Calls i → (serveHTTP (agent after token) r).Calls i' →
      ds i.key = ds i'.key
  mysql {order : List String} {token : String} {r : Request} {i : Invocation} :
    K8s.defaultType "" ∈ keys → order.Perm keys → r.dbType = [] →
      (serveHTTP (agent order token) r).Calls i → ds i.key = ds (K8s.defaultType "")
  clone {before after : List String} {token clientToken snapshot cloneName : String}
      {i i' : Invocation} :
    before.Perm keys → after.Perm keys →
      (createClone (clientOf (agent before token) clientToken) "" snapshot cloneName).Calls i →
      (deleteClone (clientOf (agent after token) clientToken) "" cloneName).Calls i' →
      ds i.key = ds i'.key

variable {keys order : List String} {ds : String → AgentProvider} {token t : String} {r : Request}

theorem mem_of_servedBy {q : Bytes} (h : servedBy keys q = some t) : t ∈ keys := by
  rcases servedBy_eq.mp h with ⟨-, -, hmem⟩ | ⟨hhead, -⟩
  · exact hmem
  · exact List.mem_of_head? hhead

/-- What is called belongs to a type of the agent. -/
theorem key_mem (hperm : order.Perm keys) {i : Invocation}
    (hi : (serveHTTP (agent order token) r).Calls i) : i.key ∈ keys :=
  hperm.mem_iff.mp (mem_of_servedBy (calls_serveHTTP.mp hi).2)

/-- A request to reset the default dataset. -/
def resetDefault : Request where
  method := .post
  url := { path := utf8 "/reset", rawPath := [], rawQuery := [], forceQuery := false }
  authorization := utf8 "Bearer "

/-- Any key may be the first. -/
theorem resets_first {key : String} (hkey : key ∈ keys) :
    ∃ order, order.Perm keys ∧
      (serveHTTP (agent order "") resetDefault).Calls ⟨key, .resetDataset⟩ := by
  have hcall : resetDefault.call "" = some .resetDataset := by decide
  exact ⟨key :: keys.erase key, (List.perm_cons_erase hkey).symm,
    calls_serveHTTP.mpr ⟨hcall, rfl⟩⟩

theorem DefaultStable.same (h : DefaultStable keys ds) {k k' : String} (hk : k ∈ keys)
    (hk' : k' ∈ keys) : ds k = ds k' := by
  obtain ⟨before, hbefore, hcalls⟩ := resets_first hk
  obtain ⟨after, hafter, hcalls'⟩ := resets_first hk'
  exact h.restart hbefore hafter rfl hcalls hcalls'

/-! ## Main result -/

/-- The default is stable exactly when it makes no difference: all types have one dataset. -/
theorem default_stable_iff (keys : List String) (ds : String → AgentProvider) :
    DefaultStable keys ds ↔ ∀ k ∈ keys, ∀ k' ∈ keys, ds k = ds k' := by
  constructor
  · exact fun h k hk k' hk' => h.same hk hk'
  · intro h
    refine ⟨?_, ?_, ?_⟩
    · intro before after token r i i' hbefore hafter _ hi hi'
      exact h _ (key_mem hbefore hi) _ (key_mem hafter hi')
    · intro order token r i hmysql horder _ hi
      exact h _ (key_mem horder hi) _ hmysql
    · intro before after token clientToken snapshot cloneName i i' hbefore hafter hi hi'
      obtain ⟨r, -, hr⟩ := calls_send.mp hi
      obtain ⟨r', -, hr'⟩ := calls_send.mp hi'
      exact h _ (key_mem hbefore hr) _ (key_mem hafter hr')

/-- Two types with a dataset each. -/
theorem default_unstable :
    ¬ DefaultStable ["mysql", "postgres"] (fun key => ⟨"tank/" ++ key⟩) := by
  intro h
  have hsame : AgentProvider.mk ("tank/" ++ "mysql") = ⟨"tank/" ++ "postgres"⟩ :=
    h.same (by decide) (by decide)
  exact absurd hsame (by decide)

end BranchDB.ZfsAgent
