import FlavoEngine.Lib.Run
import FlavoEngine.Renderer.Dx12

/-!
# The render manager

`RenderManager` (`renderer/source/renderer/render_manager.cpp`) holds the renderer that is in use.
`Initialize` puts a new one in place and then initialises it.

* Renderers and their `RendererDX12Data` are objects with an identity; the state keeps the account
  of the data objects that were created and destroyed.
* `m_Renderer` is a `unique_ptr<IRenderer>`, and `IRenderer` has no virtual destructor: deleting a
  renderer through it runs the destructor of `IRenderer` only.
* A call with no renderer goes through a null pointer and does not return.

Results:
1. `initialize_dx12`: what an `Initialize` with `ERendererType::DX12` leaves, and when it succeeds.
2. `renderer_all_or_nothing_iff`: initialisation is all-or-nothing in exactly the runs in which
   every such call finds a machine on which it works.
3. `renderer_half_initialised`: a failed re-initialisation replaces a working renderer.
-/

namespace FlavoEngine.Renderer

open FlavoEngine.Core
open FlavoEngine.Core.Text
open FlavoEngine.Lib

/-! ## Objects -/

inductive ERendererType where
  | dummy
  | dx12
deriving DecidableEq

/-- `to_underlying(rtype)`. -/
def ERendererType.toUnderlying : ERendererType → Nat
  | .dummy => 0
  | .dx12 => 1

/-- The paths of the two source files in the build. -/
structure Build where
  renderManager : SourceFile
  rendererDx12 : SourceFile

/-- A `RendererDX12Data` on the heap. -/
structure DataObject where
  id : Nat
  data : RendererDX12Data
deriving DecidableEq

/-- A `RendererDX12` on the heap. -/
structure RendererObject where
  id : Nat
  mData : Option DataObject := none
deriving DecidableEq

/-- `RenderManager`, with the account of the objects created so far: the renderers have the ids
below `renderers` and the data objects the ids below `created`. -/
structure ManagerState where
  mRenderer : Option RendererObject := none
  renderers : Nat := 0
  created : Nat := 0
  destroyed : List Nat := []
deriving DecidableEq

/-- The destructor of `IRenderer` is virtual. The class declares none. -/
def irendererHasVirtualDestructor : Bool :=
  false

namespace ManagerState

/-- Before any call. -/
def init : ManagerState := {}

/-- `delete` of the `RendererDX12Data` that a `unique_ptr` holds. -/
def deleteData (s : ManagerState) : Option DataObject → ManagerState
  | none => s
  | some d => { s with destroyed := s.destroyed ++ [d.id] }

/-- `delete` of the renderer that `m_Renderer` holds, through `IRenderer*`. -/
def deleteRenderer (s : ManagerState) : ManagerState :=
  match s.mRenderer with
  | none => s
  | some r => if irendererHasVirtualDestructor then s.deleteData r.mData else s

/-- The destructor of the manager. -/
def destruct (s : ManagerState) : ManagerState :=
  { s.deleteRenderer with mRenderer := none }

/-! ## The operations -/

variable (build : Build) (fuel : Nat)

/-- `RendererDX12::Initialize` of the renderer `r`. -/
def rendererInitialize (s : ManagerState) (r : RendererObject) (m : Machine) (window : Window) :
    Except Stuck (Res × ManagerState) :=
  let s := s.deleteData r.mData
  match initializeStages build.rendererDx12 m fuel window {} with
  | .error stuck => .error stuck
  | .ok (res, data, _) =>
    .ok (res, { s with
      mRenderer := some { r with mData := some { id := s.created, data } }
      created := s.created + 1 })

/-- `RenderManager::Initialize`. -/
def initializeRenderer (s : ManagerState) (rtype : ERendererType) (m : Machine) (window : Window) :
    Except Stuck (Res × ManagerState) :=
  match rtype with
  | .dx12 =>
    let r : RendererObject := { id := s.renderers }
    let s := { s.deleteRenderer with mRenderer := some r, renderers := s.renderers + 1 }
    s.rendererInitialize build fuel r m window
  | .dummy =>
    .ok (build.renderManager.error 18
      (format "Not supported renderer type: {}".toList [decimal rtype.toUnderlying]), s)

/-- `RenderManager::Destroy`; the renderer's own `Destroy` only reports success. -/
def destroy (s : ManagerState) : Except Stuck (Res × ManagerState) :=
  match s.mRenderer with
  | none => .error .nullPointer
  | some _ => .ok (success, s)

/-- `RenderManager::UpdateRender`; the renderer's own `UpdateRender` only reports success. -/
def updateRender (s : ManagerState) : Except Stuck (Res × ManagerState) :=
  match s.mRenderer with
  | none => .error .nullPointer
  | some _ => .ok (success, s)

end ManagerState

/-! ## Runs -/

inductive ManagerCall where
  | initializeRenderer (rtype : ERendererType) (m : Machine) (window : Window)
  | updateRender
  | destroy

/-- A call that has returned, with its result. -/
structure Returned where
  call : ManagerCall
  res : Res

namespace ManagerState

def perform (build : Build) (fuel : Nat) (s : ManagerState) :
    ManagerCall → Except Stuck (Res × ManagerState)
  | .initializeRenderer rtype m window => s.initializeRenderer build fuel rtype m window
  | .updateRender => s.updateRender
  | .destroy => s.destroy

/-- The calls of a run return. -/
def Steps (build : Build) (s : ManagerState) (l : Returned) (s' : ManagerState) : Prop :=
  ∃ fuel, s.perform build fuel l.call = .ok (l.res, s')

/-- A renderer that is in use is fully initialised. -/
def FullyInitialised (s : ManagerState) : Prop :=
  ∀ r, s.mRenderer = some r → ∃ d, r.mData = some d ∧ d.data.Initialized

/-- All or nothing: a success is a new renderer that is fully initialised, an error leaves the
renderer as it was, and no call succeeds on, or leaves, a renderer that is not. -/
def AllOrNothing (s : ManagerState) (l : Returned) (s' : ManagerState) : Prop :=
  s'.FullyInitialised ∧
    match l.call with
    | .initializeRenderer _ _ _ =>
      (l.res.isOk = true → ∃ r, s'.mRenderer = some r ∧
        (∃ d, r.mData = some d ∧ d.data.Initialized) ∧
        ∀ old, s.mRenderer = some old → old.id ≠ r.id) ∧
      (l.res.isOk = false → s'.mRenderer = s.mRenderer)
    | .updateRender | .destroy => l.res.isOk = true → s.FullyInitialised

/-- Where a DX12 renderer is asked for, some adapter yields a device and every other checked call
succeeds. -/
def MachineWorks (_ : ManagerState) (l : Returned) : Prop :=
  match l.call with
  | .initializeRenderer .dx12 m _ => m.Works
  | _ => True

end ManagerState

open ManagerState

variable {build : Build}

namespace RenderManagerLemmas

/-- What an `Initialize` with `ERendererType::DX12` leaves: a new renderer, with what the stages
made of its data. -/
theorem initialize_dx12 {fuel : Nat} {s s' : ManagerState} {m : Machine} {window : Window}
    {res : Res} (h : s.initializeRenderer build fuel .dx12 m window = .ok (res, s')) :
    ∃ data calls, initializeStages build.rendererDx12 m fuel window {} = .ok (res, data, calls) ∧
      s' = { s with
        mRenderer := some { id := s.renderers, mData := some { id := s.created, data } }
        renderers := s.renderers + 1
        created := s.created + 1 } := by
  have hdelete : s.deleteRenderer = s := by
    unfold deleteRenderer
    cases s.mRenderer with
    | none => rfl
    | some r => rfl
  simp only [initializeRenderer, rendererInitialize, hdelete, deleteData] at h
  split at h
  · cases h
  · next res' data calls hstages =>
    cases h
    exact ⟨data, calls, hstages, rfl⟩

theorem initialize_dummy {fuel : Nat} {s s' : ManagerState} {m : Machine} {window : Window}
    {res : Res} (h : s.initializeRenderer build fuel .dummy m window = .ok (res, s')) :
    res.isOk = false ∧ s' = s := by
  cases h
  exact ⟨rfl, rfl⟩

/-- `UpdateRender` and `Destroy` need a renderer and change nothing. -/
theorem use_renderer {s s' : ManagerState} {res : Res}
    (h : s.updateRender = .ok (res, s') ∨ s.destroy = .ok (res, s')) : s' = s := by
  unfold updateRender destroy at h
  cases hr : s.mRenderer with
  | none =>
    rw [hr] at h
    rcases h with h | h
    · cases h
    · cases h
  | some r =>
    rw [hr] at h
    rcases h with h | h
    · cases h
      rfl
    · cases h
      rfl

/-- What a call does that returns: a DX12 initialisation installs a new renderer, and no other call
changes anything. -/
theorem step_cases {s s' : ManagerState} {call : ManagerCall} {res : Res}
    (hstep : Steps build s ⟨call, res⟩ s') :
    (∃ fuel m window data calls, call = .initializeRenderer .dx12 m window ∧
        initializeStages build.rendererDx12 m fuel window {} = .ok (res, data, calls) ∧
        s' = { s with
          mRenderer := some { id := s.renderers, mData := some { id := s.created, data } }
          renderers := s.renderers + 1
          created := s.created + 1 }) ∨
      (s' = s ∧ ((∃ m window, call = .initializeRenderer .dummy m window ∧ res.isOk = false) ∨
        call = .updateRender ∨ call = .destroy)) := by
  obtain ⟨fuel, hperform⟩ := hstep
  cases call with
  | initializeRenderer rtype m window =>
    cases rtype with
    | dummy =>
      have hinit : s.initializeRenderer build fuel .dummy m window = .ok (res, s') := hperform
      obtain ⟨hfail, hsame⟩ := initialize_dummy hinit
      exact .inr ⟨hsame, .inl ⟨m, window, rfl, hfail⟩⟩
    | dx12 =>
      have hinit : s.initializeRenderer build fuel .dx12 m window = .ok (res, s') := hperform
      obtain ⟨data, calls, hstages, hnew⟩ := initialize_dx12 hinit
      exact .inl ⟨fuel, m, window, data, calls, rfl, hstages, hnew⟩
  | updateRender => exact .inr ⟨use_renderer (.inl hperform), .inr (.inl rfl)⟩
  | destroy => exact .inr ⟨use_renderer (.inr hperform), .inr (.inr rfl)⟩

/-- The invariant: the renderer in use is initialised, and its id is one of those handed out. -/
def Installed (s : ManagerState) : Prop :=
  s.FullyInitialised ∧ ∀ r, s.mRenderer = some r → r.id < s.renderers

theorem installed_init : Installed init := by
  constructor
  · rintro r ⟨⟩
  · rintro r ⟨⟩

theorem installed_step {s s' : ManagerState} {l : Returned} (hs : Installed s)
    (hworks : MachineWorks s l) (hstep : Steps build s l s') :
    Installed s' ∧ AllOrNothing s l s' := by
  obtain ⟨call, res⟩ := l
  obtain ⟨fuel, m, window, data, calls, rfl, hstages, rfl⟩ |
    ⟨rfl, ⟨m, window, rfl, hfail⟩ | rfl | rfl⟩ := step_cases hstep
  · obtain ⟨hok, hdone⟩ := initialize_spec build.rendererDx12 m hstages
    have hres : res.isOk = true := hok.mpr hworks
    have hfull : ∃ d, some ({ id := s.created, data } : DataObject) = some d ∧
        d.data.Initialized := ⟨_, rfl, hdone hres⟩
    refine ⟨⟨?_, ?_⟩, ?_, fun _ => ⟨_, rfl, hfull, ?_⟩, fun hfail => ?_⟩
    · rintro r ⟨⟩
      exact hfull
    · rintro r ⟨⟩
      exact Nat.lt_succ_self _
    · rintro r ⟨⟩
      exact hfull
    · exact fun old hold => Nat.ne_of_lt (hs.2 old hold)
    · rw [show res.isOk = false from hfail] at hres
      cases hres
  · refine ⟨hs, hs.1, fun hok => ?_, fun _ => rfl⟩
    rw [hfail] at hok
    cases hok
  · exact ⟨hs, hs.1, fun _ => hs.1⟩
  · exact ⟨hs, hs.1, fun _ => hs.1⟩

/-- An initialisation on a machine on which it does not work fails, and replaces the renderer. -/
theorem replaced {s s' : ManagerState} {l : Returned} (hs : Installed s)
    (hworks : ¬ MachineWorks s l) (hstep : Steps build s l s') : ¬ AllOrNothing s l s' := by
  obtain ⟨call, res⟩ := l
  obtain ⟨fuel, m, window, data, calls, rfl, hstages, rfl⟩ |
    ⟨rfl, ⟨m, window, rfl, -⟩ | rfl | rfl⟩ := step_cases hstep
  · obtain ⟨hok, -⟩ := initialize_spec build.rendererDx12 m hstages
    have hfail : res.isOk = false := Bool.eq_false_iff.mpr fun hres => hworks (hok.mp hres)
    rintro ⟨-, -, hsame⟩
    exact absurd (hs.2 _ (hsame hfail).symm) (Nat.lt_irrefl _)
  · exact absurd trivial hworks
  · exact absurd trivial hworks
  · exact absurd trivial hworks

end RenderManagerLemmas

open RenderManagerLemmas

/-- A run of calls is all-or-nothing throughout exactly when every `Initialize` that asks for a DX12
renderer finds a machine on which the initialisation works. -/
theorem renderer_all_or_nothing_iff (build : Build)
    {tr : List (ManagerState × Returned × ManagerState)} {s : ManagerState}
    (hrun : Run (Steps build) init tr s) :
    (∀ t ∈ tr, AllOrNothing t.1 t.2.1 t.2.2) ↔ Meets MachineWorks tr :=
  hrun.forall_iff installed_init installed_step replaced

/-! ## Two machines -/

def exampleBuild : Build :=
  { renderManager := { name := "render_manager.cpp".toList, noNul := by decide }
    rendererDx12 := { name := "renderer_dx12.cpp".toList, noNul := by decide } }

/-- One hardware adapter, and every call succeeds. -/
def workingMachine : Machine :=
  { createDXGIFactory1 := 0
    enumAdapters1 := fun k => if k = 0 then 0 else dxgiErrorNotFound
    adapterFlags := fun _ => 0
    d3d12CreateDevice := fun k => ⟨0, k⟩
    createCommandQueue := ⟨0, 10⟩
    createDXGIFactory1ForSwapChain := 0
    createSwapChain := ⟨0, 20⟩
    getCurrentBackBufferIndex := 0
    createDescriptorHeap := ⟨0, 30⟩
    getDescriptorHandleIncrementSize := 32
    getCPUDescriptorHandleForHeapStart := 4096
    getBuffer := fun i => ⟨0, 40 + i⟩
    createCommandAllocator := fun i => ⟨0, 50 + i⟩
    createCommandList := fun i => ⟨0, 60 + i⟩ }

/-- The same machine without a command queue (`E_FAIL`). -/
def brokenMachine : Machine :=
  { workingMachine with createCommandQueue := ⟨Int32.ofBitVec 0x80004005#32, 0⟩ }

theorem workingMachine_works : workingMachine.Works where
  factory := rfl
  adapter := ⟨1, ⟨rfl, fun k hk => by rw [Nat.lt_one_iff.mp hk]; rfl⟩, 0, Nat.one_pos, rfl⟩
  commandQueue := rfl
  swapChainFactory := rfl
  swapChain := rfl
  descriptorHeap := rfl
  buffers _ _ := rfl
  allocators _ _ := rfl
  lists _ _ := rfl

/-- A call that asks for a DX12 renderer, and its result. -/
def askDx12 (m : Machine) (res : Res) : Returned :=
  { call := .initializeRenderer .dx12 m 0, res }

theorem perform_working :
    ∃ res s, Steps exampleBuild init (askDx12 workingMachine res) s := by
  obtain ⟨⟨res, s⟩, hcall⟩ : ∃ r, perform exampleBuild 2 init
    (.initializeRenderer .dx12 workingMachine 0) = .ok r := ⟨_, rfl⟩
  exact ⟨res, s, 2, hcall⟩

theorem perform_broken (s : ManagerState) :
    ∃ res s', Steps exampleBuild s (askDx12 brokenMachine res) s' := by
  obtain ⟨⟨res, s'⟩, hcall⟩ : ∃ r, perform exampleBuild 2 s
    (.initializeRenderer .dx12 brokenMachine 0) = .ok r := ⟨_, rfl⟩
  exact ⟨res, s', 2, hcall⟩

/-- The initialisation on the working machine is all-or-nothing. -/
theorem renderer_all_or_nothing_iff_working :
    ∃ tr s, Run (Steps exampleBuild) init tr s ∧ tr.length = 1 ∧
      ∀ t ∈ tr, AllOrNothing t.1 t.2.1 t.2.2 := by
  obtain ⟨res, s, hstep⟩ := perform_working
  have hrun : Run (Steps exampleBuild) init _ s := .snoc .nil hstep
  have hworks : Meets MachineWorks ([] ++ [(init, askDx12 workingMachine res, s)]) :=
    Run.meets_snoc.mpr ⟨fun t ht => absurd ht List.not_mem_nil, workingMachine_works⟩
  exact ⟨_, s, hrun, rfl, (renderer_all_or_nothing_iff exampleBuild hrun).mpr hworks⟩

/-- A renderer that works is replaced by one that has a device and no command queue. -/
theorem renderer_half_initialised :
    ¬ ∀ tr s, Run (Steps exampleBuild) init tr s → ∀ t ∈ tr, AllOrNothing t.1 t.2.1 t.2.2 := by
  intro hall
  obtain ⟨res₁, s₁, hfirst⟩ := perform_working
  obtain ⟨res₂, s₂, hsecond⟩ := perform_broken s₁
  have hworks : MachineWorks init (askDx12 workingMachine res₁) := workingMachine_works
  have hbroken : ¬ MachineWorks s₁ (askDx12 brokenMachine res₂) :=
    fun h : brokenMachine.Works => absurd h.commandQueue (by decide)
  have hinstalled : Installed s₁ := (installed_step installed_init hworks hfirst).1
  exact replaced hinstalled hbroken hsecond
    (hall _ s₂ (.snoc (.snoc .nil hfirst) hsecond) (s₁, askDx12 brokenMachine res₂, s₂)
      (by simp))

end FlavoEngine.Renderer
