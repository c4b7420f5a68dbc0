import FlavoEngine.Renderer.RenderManager

/-!
# The lifetime of the renderers' data

Each `RendererDX12::Initialize` creates a `RendererDX12Data`, which its renderer owns; the renderer
is owned by the manager, through `unique_ptr<IRenderer>`. Deleting the renderer through the
interface does not run its destructor, so the data stay behind.

Results:
1. `alive_eq`: every data object that was ever created is alive.
2. `no_data_lost_iff`: none is lost in exactly the runs that ask for no DX12 renderer.
3. `data_lost`: one initialisation that succeeds.
-/

namespace FlavoEngine.Renderer

open FlavoEngine.Lib
open ManagerState

/-- The data objects that have been created and not destroyed. -/
def ManagerState.alive (s : ManagerState) : List Nat :=
  (List.range s.created).filter fun id => id ∉ s.destroyed

/-- The call is an `Initialize`. -/
def Returned.isInitialize (l : Returned) : Prop :=
  ∃ rtype m window, l.call = .initializeRenderer rtype m window

/-- The call asks for a DX12 renderer. -/
def Returned.asksDx12 (l : Returned) : Bool :=
  match l.call with
  | .initializeRenderer .dx12 _ _ => true
  | _ => false

/-- No renderer resources are lost in a run that the destructor of the manager ends: at most one
data object is alive after each `Initialize`, every one is destroyed exactly once, and none is alive
at the end. -/
structure NoDataLost (tr : List (ManagerState × Returned × ManagerState)) (s : ManagerState) :
    Prop where
  oneAlive : ∀ t ∈ tr, t.2.1.isInitialize → t.2.2.alive.length ≤ 1
  destroyedOnce : ∀ id, id < s.destruct.created → s.destruct.destroyed.count id = 1
  noneAlive : s.destruct.alive = []

variable {build : Build}

namespace DataLifetimeLemmas

/-- Deleting a renderer through the interface destroys no data. -/
theorem destruct_account (s : ManagerState) :
    s.destruct.created = s.created ∧ s.destruct.destroyed = s.destroyed := by
  unfold destruct deleteRenderer
  cases s.mRenderer with
  | none => exact ⟨rfl, rfl⟩
  | some r => exact ⟨rfl, rfl⟩

/-- What a call does to the account: a DX12 initialisation creates one data object. -/
theorem step_account {s s' : ManagerState} {l : Returned} (hstep : Steps build s l s') :
    s'.destroyed = s.destroyed ∧ s'.created = s.created + if l.asksDx12 then 1 else 0 := by
  obtain ⟨call, res⟩ := l
  obtain ⟨_, m, window, data, calls, rfl, -, rfl⟩ | ⟨rfl, ⟨m, window, rfl, -⟩ | rfl | rfl⟩ :=
    RenderManagerLemmas.step_cases hstep
  · exact ⟨rfl, rfl⟩
  · exact ⟨rfl, rfl⟩
  · exact ⟨rfl, rfl⟩
  · exact ⟨rfl, rfl⟩

/-- Over a run: nothing is destroyed, and each DX12 initialisation has created one data object. -/
theorem run_account {tr : List (ManagerState × Returned × ManagerState)} {s : ManagerState}
    (hrun : Run (Steps build) init tr s) :
    s.destroyed = [] ∧ s.created = tr.countP fun t => t.2.1.asksDx12 := by
  induction hrun with
  | nil => exact ⟨rfl, rfl⟩
  | @snoc tr s s' l _ hstep ih =>
    obtain ⟨hdestroyed, hcreated⟩ := step_account hstep
    refine ⟨hdestroyed.trans ih.1, ?_⟩
    rw [hcreated, ih.2, List.countP_append, List.countP_singleton]

theorem alive_of_none {s : ManagerState} (h : s.created = 0) : s.alive = [] := by
  unfold alive
  rw [h]
  rfl

end DataLifetimeLemmas

open DataLifetimeLemmas

/-- After any run, and after the manager is gone, every data object that was ever created is
alive. -/
theorem alive_eq {tr : List (ManagerState × Returned × ManagerState)} {s : ManagerState}
    (hrun : Run (Steps build) init tr s) :
    s.alive = List.range (tr.countP fun t => t.2.1.asksDx12) ∧ s.destruct.alive = s.alive := by
  obtain ⟨hdestroyed, hcreated⟩ := run_account hrun
  obtain ⟨hcreated', hdestroyed'⟩ := destruct_account s
  constructor
  · unfold alive
    rw [hdestroyed, hcreated]
    exact List.filter_eq_self.mpr fun id _ => by simp
  · unfold alive
    rw [hcreated', hdestroyed']

/-- No data object is lost exactly when no call asks for a DX12 renderer. -/
theorem no_data_lost_iff (build : Build) {tr : List (ManagerState × Returned × ManagerState)}
    {s : ManagerState} (hrun : Run (Steps build) init tr s) :
    NoDataLost tr s ↔ Meets (fun _ l => l.asksDx12 = false) tr := by
  constructor
  · intro hlost t ht
    obtain ⟨halive, hafter⟩ := alive_eq hrun
    have hnone : List.range (tr.countP fun t => t.2.1.asksDx12) = [] :=
      halive.symm.trans (hafter.symm.trans hlost.noneAlive)
    have hcount : tr.countP (fun t => t.2.1.asksDx12) = 0 := by
      simpa using congrArg List.length hnone
    exact Bool.eq_false_iff.mpr (List.countP_eq_zero.mp hcount t ht)
  · intro hnone
    have hkeep : ∀ {s₁ l s₂}, s₁.created = 0 → l.asksDx12 = false → Steps build s₁ l s₂ →
        s₂.created = 0 := by
      intro s₁ l s₂ hzero hl hstep
      rw [(step_account hstep).2, hzero, hl]
      rfl
    have hend : s.created = 0 :=
      hrun.inv (I := fun s => s.created = 0) (C := fun _ l => l.asksDx12 = false) rfl hkeep hnone
    have hcreated : s.destruct.created = 0 := (destruct_account s).1.trans hend
    constructor
    · intro t ht _
      have hafter : t.2.2.created = 0 :=
        (hrun.inv_mem (I := fun s => s.created = 0) (C := fun _ l => l.asksDx12 = false) rfl hkeep
          hnone ht).2
      rw [alive_of_none hafter]
      exact Nat.zero_le 1
    · intro id hid
      rw [hcreated] at hid
      exact absurd hid (Nat.not_lt_zero id)
    · exact alive_of_none hcreated

/-- A run that only asks for the dummy renderer. -/
theorem no_data_lost_iff_idle :
    ∃ tr s, Run (Steps exampleBuild) init tr s ∧ tr.length = 1 ∧ NoDataLost tr s := by
  have hstep : Steps exampleBuild init
      ⟨.initializeRenderer .dummy workingMachine 0, _⟩ init := ⟨0, rfl⟩
  have hrun : Run (Steps exampleBuild) init _ init := .snoc .nil hstep
  refine ⟨_, init, hrun, rfl, (no_data_lost_iff exampleBuild hrun).mpr ?_⟩
  exact Run.meets_snoc.mpr ⟨fun t ht => absurd ht List.not_mem_nil, rfl⟩

/-- The data of a renderer that was initialised successfully outlive the manager. -/
theorem data_lost :
    ¬ ∀ tr s, Run (Steps exampleBuild) init tr s → NoDataLost tr s := by
  intro hall
  obtain ⟨res, s, hstep⟩ := perform_working
  have hrun : Run (Steps exampleBuild) init _ s := .snoc .nil hstep
  obtain ⟨halive, hafter⟩ := alive_eq hrun
  have hnone : s.alive = [] := hafter.symm.trans (hall _ s hrun).noneAlive
  rw [halive] at hnone
  cases hnone

end FlavoEngine.Renderer
