import Tmysql4.Teardown

/-! # The registry of databases

`tmysql::m_databases` lists the live databases as long as connection attempts succeed
(`registry_live`): a failed attempt deletes its object and leaves it registered. -/

namespace Tmysql4
namespace State

/-- Every connection attempt succeeds. -/
def Connects (s : State) : Label → Prop
  | .connect _ _ r => r = .connected
  | .dbConnect d r => (s.db d).handle = .pointer → (s.db d).isConnected = false → r = .connected
  | _ => True

instance (s : State) (l : Label) : Decidable (s.Connects l) := by
  apply Label.casesOn (motive := fun l => Decidable (s.Connects l)) l <;>
    intros <;> dsimp only [Connects] <;> infer_instance

/-- The registry lists the live databases. -/
def Listed (s : State) : Prop := ∀ d, d ∈ s.databases ↔ (s.db d).live = true

theorem listed_effect {s s' : State} {l : Label} (h : s.Listed) (hl : s.Connects l)
    (he : s.Effect l s') : s'.Listed := by
  intro d
  have hd := h d
  cases he with
  | stay turn => exact hd
  | create callback junk turn =>
      simp
      grind [Database.construct]
  | connected callback junk turn =>
      simp
      grind [Database.construct, Database.fire_live]
  | connectFailed callback junk r turn failed => exact absurd hl failed
  | dbConnectFailed d' r calls idle failed can => exact absurd (hl calls.handle idle) failed
  | destroy d' stack top live =>
      simp
      grind
  | _ =>
      simp
      grind [Database.fire_live]

/-- With an exact registry `tmysql.GetTable` finds every database alive. -/
theorem getTable_of_listed {s : State} (h : s.Listed) :
    ∃ s', tmysqlGetTable s.databases s = .ok s' := by
  rcases getTable_cases s.databases s with ⟨-, he⟩ | ⟨d, hm, hd, -⟩
  · exact ⟨_, he⟩
  · rw [(h d).mp hm] at hd
    cases hd

/-- **The registry is exact.** In a run whose connection attempts all
succeed, `m_databases` lists the databases that have been constructed
and not deleted, and `tmysql.GetTable` pushes live handles. -/
theorem registry_live {s : State} {tr : List Label}
    (hG : Transition.Along State.step Connects init tr)
    (h : Transition.exec State.step init tr = some s) :
    (∀ d, d ∈ s.databases ↔ (s.db d).live = true) ∧
      ∃ s', tmysqlGetTable s.databases s = .ok s' := by
  have hlisted : s.Listed := by
    refine Transition.exec_inv (fun s l s' hI hl hs => ?_)
      (by intro d; simp [init, Database.raw]) hG h
    obtain ⟨-, he | ⟨f, -, rfl⟩⟩ := step_effect hs
    · exact listed_effect hI hl he
    · exact hI
  exact ⟨hlisted, getTable_of_listed hlisted⟩

/-- A failed `tmysql.Connect` leaves the deleted object registered. -/
theorem registry_live_fails :
    (Transition.exec State.step init [.connect true false .refused]).map
      (fun s => (s.databases, (s.db 0).live, s.deleted)) = some ([0], false, [0]) := by decide

theorem registry_live_two :
    ∃ s, Transition.exec State.step init
        [.create true false, .dbConnect 0 .connected, .connect false true .connected, .cpp,
          .disconnect 0, .io 0 .stop, .cpp, .cpp, .cpp, .cpp, .getTable] = some s ∧
      (0 ∈ s.databases ↔ (s.db 0).live = true) := by
  obtain ⟨s, hs⟩ := Option.isSome_iff_exists.mp (show (Transition.exec State.step init
        [.create true false, .dbConnect 0 .connected, .connect false true .connected, .cpp,
          .disconnect 0, .io 0 .stop, .cpp, .cpp, .cpp, .cpp, .getTable]).isSome by decide)
  exact ⟨s, hs, (registry_live (by decide) hs).1 0⟩

end State
end Tmysql4
