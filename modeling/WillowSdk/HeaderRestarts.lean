/-
# A light client that is restarted

`export_trusted_state` and `import_trusted_state` (src/light_client.rs): what
a client saves before it stops, and resumes from. A restart at any time, any
number of times, changes nothing of what the client holds, and so of what its
operations do (`restarts_are_invisible`).
-/
import WillowSdk.HeaderSync

namespace WillowSdk
namespace Headers

/-- The headers held, in the order of their heights. -/
def exportTrustedState (config : Config) (store : Store) : TrustedState where
  chainId := config.chainId
  headers := store.entries.map Prod.snd

/-- What happens to a client: a call of an operation, or a stop after which a
new client of the same settings resumes. -/
inductive Session (V : Type)
  | call (op : Operation V)
  | restart

def Session.operation? {V : Type} : Session V → Option (Operation V)
  | .call op => some op
  | .restart => none

section Restarts

variable {V : Type} (json : JsonTree V) (codecs : Codecs) (schemes : Schemes) (config : Config)

/-- The import's result, and the store it leaves. -/
def restart (store : Store) : Checked Unit × Store :=
  importTrustedState config (exportTrustedState config store) OrderedMap.empty

def sessionStep (store : Store) : Session V → Store
  | .call op => step json codecs schemes config store op
  | .restart => (restart config store).2

variable {json codecs schemes config} {store : Store}

/-- What is exported is of the settings' chain, so it is imported. -/
theorem importTrustedState_export (own : Store) :
    importTrustedState config (exportTrustedState config store) own =
      (.ok (), (store.entries.map Prod.snd).foldl (fun s b => s.insert b.header.height.toNat b) own) :=
  if_neg (not_not.mpr rfl)

/-- **What is saved is what is resumed from.** -/
theorem restart_eq (h : OwnHeights store) : restart config store = (.ok (), store) := by
  have hkeys : ∀ e ∈ store.entries,
      (fun b : LightBlock => b.header.height.toNat) e.2 = e.1 := fun e he =>
    h e.1 e.2 (OrderedMap.get_eq_some.mpr he)
  rw [restart, importTrustedState_export]
  exact congrArg (Prod.mk (Except.ok ())) (OrderedMap.rebuild hkeys)

/-- The header exported at a height is the one held. -/
theorem find_export (config : Config) (h : OwnHeights store) (height : ℕ) :
    ((store.entries.map Prod.snd).reverse.find? fun b => b.header.height.toNat = height) =
      store.get height := by
  have hresumed : (restart config store).2.get height = store.get height := by rw [restart_eq h]
  rw [restart, importTrustedState_export] at hresumed
  dsimp only at hresumed
  rw [get_foldl_insert, OrderedMap.get_empty, Option.or_none] at hresumed
  exact hresumed

theorem sessionStep_ownHeights (h : OwnHeights store) (action : Session V) :
    OwnHeights (sessionStep json codecs schemes config store action) := by
  cases action with
  | call op => exact step_ownHeights h op
  | restart =>
    show OwnHeights (restart config store).2
    rw [restart_eq h]
    exact h

/-- By the actions: a restart leaves the store as it is. -/
theorem run_eq (h : OwnHeights store) (actions : List (Session V)) :
    Runs.run (sessionStep json codecs schemes config) store actions =
      Runs.run (step json codecs schemes config) store (actions.filterMap Session.operation?) := by
  induction actions generalizing store with
  | nil => rfl
  | cons action actions ih =>
    rw [Runs.run_cons, ih (sessionStep_ownHeights h action)]
    cases action with
    | call op => rfl
    | restart =>
      show Runs.run _ (restart config store).2 _ = _
      rw [restart_eq h]
      rfl

end Restarts

/-- **Restarts are invisible.** Over any operations, with any answers, a client
that is stopped and resumed from its own export, at any times, holds what one
that ran on would; no import fails. And a client with headers of its own that
imports the export holds both, the exported where they meet. -/
theorem restarts_are_invisible {V : Type} (json : JsonTree V) (codecs : Codecs) (schemes : Schemes)
    (config : Config) (actions : List (Session V)) :
    let store := Runs.run (sessionStep json codecs schemes config) OrderedMap.empty actions
    store = storeAfter json codecs schemes config (actions.filterMap Session.operation?) ∧
    (restart config store).1 = .ok () ∧
    ∀ (own : Store) (height : ℕ),
      (importTrustedState config (exportTrustedState config store) own).2.get height =
        (store.get height).or (own.get height) := by
  have hempty : OwnHeights OrderedMap.empty := fun height block h => by cases h
  have hrun : Runs.run (sessionStep json codecs schemes config) OrderedMap.empty actions =
      storeAfter json codecs schemes config (actions.filterMap Session.operation?) :=
    run_eq hempty actions
  intro store
  have hown : OwnHeights store := by
    show OwnHeights (Runs.run _ _ _)
    rw [hrun]
    exact storeAfter_ownHeights _
  refine ⟨hrun, by rw [restart_eq hown], fun own height => ?_⟩
  rw [importTrustedState_export]
  dsimp only
  rw [get_foldl_insert, find_export config hown]

end Headers
end WillowSdk
