import SweetHome.Lib.Run
import SweetHome.Rendering

/-!
# Loss of the EGL context

`GLSurfaceView` makes a new context when the last one is lost, and calls `onSurfaceCreated`. The view returns
from it at once when the game is loaded, so that `Video` goes on with the objects of a context that is gone, and
a core that draws by itself is not told to make its own anew. Frames are drawn with objects of the current context,
by a core that was told of it, exactly as long as the game was loaded in that context (`recovered_iff`).
-/

namespace SweetHome.ContextLoss
open Step ShaderManager Rendering

section
variable (K D : Type)

/-- How `initializeCore` goes when the game is not loaded yet. -/
inductive Loading where
  /-- With the size of the frames, and the layout of the environment. -/
  | loaded (width height : Nat) (videoLayout : VideoLayout K)
  | throwsRetroException
  /-- An exception that does not abort the view. -/
  | throws

inductive Action where
  /-- A context is made: the first, or because the last one is lost. -/
  | createContext
  | onSurfaceCreated (loading : Loading K)
  /-- `onSurfaceChanged` and the other calls that only change the layout. -/
  | updateLayout (f : VideoLayout K → VideoLayout K)
  | setShaderConfig (shaderConfig : Config)
  /-- `RenderLifecycleObserver`, which is added when the game is loaded. -/
  | resume
  | pause
  /-- The frames that the core hands out in a step, and the geometry that it sets. -/
  | onDrawFrame (callbacks : List (Option (Frame D))) (geometry : Option (Nat × Nat))
  /-- A call elsewhere ends with a `RetroException`. -/
  | abort

structure State where
  /-- The number of the current context. -/
  context : Nat := 0
  /-- `onSurfaceCreated` is still to be called for the context. -/
  isSurfacePending : Bool := false
  /-- `onSurfaceCreated` has returned without error for the context. -/
  isSurfaceCreated : Bool := false
  isGameLoaded : Bool := false
  isEmulationReady : Bool := false
  isAborted : Bool := false
  fragmentShaderConfig : Config
  video : Option (Video Nat K D) := none
  /-- The context in which the game was loaded. -/
  loadedIn : Nat := 0
  /-- The calls of `context_reset` since the context was made. -/
  resets : Nat := 0

end

/-- What is given to `create`, and whether the core asks for a context of its own, with a `context_reset`. -/
structure Session where
  openglESVersion : Nat
  skipDuplicateFrames : Bool
  ambientMode : Bool
  hardwareAccelerated : Bool

section
variable {K D : Type} (session : Session)

/-- The video callbacks of a step. -/
def handleVideoRefresh (context : Nat) (v : Video Nat K D) :
    List (Option (Frame D)) → Video Nat K D × List (Picture Nat K D)
  | [] => (v, [])
  | data :: callbacks =>
    let v := v.onNewFrame context data
    let drawn := if v.renderer.rendersInVideoCallback then v.renderFrame context else (v, none)
    let rest := handleVideoRefresh context drawn.1 callbacks
    (rest.1, drawn.2.toList ++ rest.2)

/-- The geometry that a core has set at runtime. -/
def updateGeometry (geometry : Option (Nat × Nat)) (v : Video Nat K D) : Video Nat K D :=
  match geometry with
  | some (width, height) => v.updateRendererSize width height
  | none => v

/-- `LibretroDroid::step` -/
def nativeStep (context : Nat) (callbacks : List (Option (Frame D))) (geometry : Option (Nat × Nat))
    (v : Video Nat K D) : Video Nat K D × List (Picture Nat K D) :=
  let run := handleVideoRefresh context v callbacks
  let drawn := if run.1.renderer.rendersInVideoCallback then (run.1, none) else run.1.renderFrame context
  (updateGeometry geometry drawn.1, run.2 ++ drawn.2.toList)

def step : Step (State K D) (Action K D) (Picture Nat K D)
  | s, .createContext =>
    some ({ s with context := s.context + 1, isSurfacePending := true, isSurfaceCreated := false, resets := 0 }, [])
  | s, .onSurfaceCreated loading =>
    if s.isSurfacePending then
      let s := { s with isSurfacePending := false }
      -- in both cases nothing is done for the new context
      if s.isAborted || s.isGameLoaded then some ({ s with isSurfaceCreated := true }, [])
      else
        match loading with
        | .loaded width height videoLayout =>
          let renderingOptions :=
            { hardwareAccelerated := session.hardwareAccelerated, width := width, height := height,
              openglESVersion := session.openglESVersion }
          some ({ s with
            isSurfaceCreated := true
            isGameLoaded := true
            video := some (Video.make s.context renderingOptions s.fragmentShaderConfig
              session.skipDuplicateFrames session.ambientMode videoLayout)
            loadedIn := s.context
            resets := if session.hardwareAccelerated then s.resets + 1 else s.resets }, [])
        | .throwsRetroException => some ({ s with isAborted := true }, [])
        | .throws => some (s, [])
    else none
  | s, .updateLayout f => some ({ s with video := s.video.map (·.updateLayout f) }, [])
  | s, .setShaderConfig shaderConfig =>
    some ({ s with
      fragmentShaderConfig := shaderConfig
      video := s.video.map (·.updateShaderType shaderConfig) }, [])
  | s, .resume =>
    if s.isGameLoaded then some (if s.isAborted then s else { s with isEmulationReady := true }, []) else none
  | s, .pause =>
    if s.isGameLoaded then some (if s.isAborted then s else { s with isEmulationReady := false }, []) else none
  | s, .onDrawFrame callbacks geometry =>
    if s.context = 0 ∨ s.isSurfacePending = true then none
    else if s.isAborted then some (s, [])
    else if s.isEmulationReady then
      match s.video with
      | some v =>
        let (v, pictures) := nativeStep s.context callbacks geometry v
        some ({ s with video := some v }, pictures)
      | none => some (s, [])
    else some (s, [])
  | s, .abort => some ({ s with isAborted := true }, [])

def start (shaderConfig : Config) : State K D := { fragmentShaderConfig := shaderConfig }

/-! ### The law, and when it holds -/

/-- The contexts of the programs, textures and framebuffers that a frame is drawn with. -/
def objects (picture : Picture Nat K D) : List Nat :=
  picture.background.toList.flatMap (fun b => b.programs.toList ++ b.blurFramebuffers.toList) ++
    picture.passes.flatMap (fun pass =>
      pass.program.context :: (pass.framebuffer.toList ++ pass.previousPass.toList).map Framebuffer.context) ++
    [picture.texture.context]

def Law (s : State K D) (a : Action K D) (_ : State K D) (es : List (Picture Nat K D)) : Prop :=
  match a with
  | .onDrawFrame .. => s.isSurfaceCreated = true →
    (∀ picture ∈ es, ∀ c ∈ objects picture, c = s.context) ∧ (session.hardwareAccelerated = true → s.resets = 1)
  | _ => True

/-- A core that does not draw by itself has a frame of it drawn. -/
def State.draws (s : State K D) (callbacks : List (Option (Frame D))) : Bool :=
  !s.isAborted && s.isEmulationReady &&
    s.video.any fun v => !v.skipDuplicateFrames || v.isDirty || callbacks.any Option.isSome

/-- The game was loaded in the current context, or the core does not draw by itself, and nothing is drawn. -/
def Condition (s : State K D) (a : Action K D) (_ : State K D) (_ : List (Picture Nat K D)) : Prop :=
  match a with
  | .onDrawFrame callbacks _ => s.isSurfaceCreated = true →
    s.loadedIn = s.context ∨ session.hardwareAccelerated = false ∧ s.draws callbacks = false
  | _ => True

end

/-! ### Objects of one context -/

section
variable {K D : Type} {context : Nat}

structure RendererCurrent (context : Nat) (r : Renderer Nat D) : Prop where
  framebuffers : ∀ f ∈ r.framebuffers, f.context = context
  texture : r.texture.context = context

/-- All that a `Video` holds was made in the context. -/
structure Current (context : Nat) (v : Video Nat K D) : Prop where
  programs : ∀ shader ∈ v.shadersChain, shader.context = context
  background : ∀ c ∈ v.videoBackground.programs, c = context
  blurFramebuffers : ∀ c ∈ v.videoBackground.blurFramebuffers, c = context
  renderer : RendererCurrent context v.renderer

theorem context_buildShaderPasses (width height : Nat) (shaders : Chain) :
    ∀ f ∈ buildShaderPasses context width height shaders, f.context = context := by
  intro f hf
  obtain ⟨pass, -, rfl⟩ := List.mem_map.1 hf
  rfl

theorem context_programs (shaders : Chain) : ∀ shader ∈ Video.programs context shaders, shader.context = context := by
  intro shader hshader
  obtain ⟨item, -, rfl⟩ := List.mem_map.1 hshader
  rfl

theorem context_getD {o : Option Nat} (h : ∀ c ∈ o, c = context) : ∀ c ∈ some (o.getD context), c = context := by
  rintro c ⟨⟩
  cases o with
  | none => rfl
  | some c => exact h c rfl

namespace RendererCurrent
variable {r : Renderer Nat D}

theorem initializeBuffers (r : Renderer Nat D) : RendererCurrent context (r.initializeBuffers context) :=
  ⟨context_buildShaderPasses _ _ _, rfl⟩

theorem onNewFrame (h : RendererCurrent context r) (frame : Frame D) :
    RendererCurrent context (r.onNewFrame context frame) := by
  unfold Renderer.onNewFrame
  split
  · exact ⟨h.framebuffers, h.texture⟩
  · dsimp only
    split
    · exact ⟨context_buildShaderPasses _ _ _, h.texture⟩
    · exact ⟨h.framebuffers, h.texture⟩
  · dsimp only
    split
    · exact initializeBuffers _
    · exact ⟨h.framebuffers, h.texture⟩

theorem setShaders (h : RendererCurrent context r) (shaders : Chain) :
    RendererCurrent context (r.setShaders shaders) := by
  rw [Renderer.setShaders_eq]
  exact ⟨h.framebuffers, h.texture⟩

theorem updateRenderedResolution (h : RendererCurrent context r) (width height : Nat) :
    RendererCurrent context (r.updateRenderedResolution width height) := by
  unfold Renderer.updateRenderedResolution
  split
  · split
    · exact ⟨h.framebuffers, h.texture⟩
    · exact h
  · exact h
  · exact h

end RendererCurrent

namespace Current
variable {v : Video Nat K D}

theorem updateProgram (h : Current context v) : Current context (v.updateProgram context) := by
  unfold Video.updateProgram
  split
  · exact h
  · exact ⟨context_programs _, h.background, h.blurFramebuffers, h.renderer.setShaders _⟩

theorem prepare (h : Current context v) : Current context (v.prepare context) := by
  refine updateProgram ?_
  dsimp only
  split
  · exact ⟨h.programs, context_getD h.background, context_getD h.blurFramebuffers, h.renderer⟩
  · exact ⟨h.programs, h.background, h.blurFramebuffers, h.renderer⟩

theorem renderFrame (h : Current context v) : Current context (v.renderFrame context).1 := by
  unfold Video.renderFrame
  split
  · exact h
  · exact h.prepare

theorem onNewFrame (h : Current context v) (data : Option (Frame D)) :
    Current context (v.onNewFrame context data) := by
  cases data with
  | none => exact h
  | some frame => exact ⟨h.programs, h.background, h.blurFramebuffers, h.renderer.onNewFrame frame⟩

theorem updateGeometry (h : Current context v) (geometry : Option (Nat × Nat)) :
    Current context (updateGeometry geometry v) := by
  unfold ContextLoss.updateGeometry
  split
  · exact ⟨h.programs, h.background, h.blurFramebuffers, h.renderer.updateRenderedResolution _ _⟩
  · exact h

theorem drawPass (h : Current context v) (i : Nat) {shader : ShaderChainEntry Nat}
    (hshader : shader ∈ v.shadersChain) :
    (v.drawPass i shader).program.context = context ∧
      ∀ f ∈ (v.drawPass i shader).framebuffer.toList ++ (v.drawPass i shader).previousPass.toList,
        f.context = context := by
  refine ⟨h.programs shader hshader, fun f hf => h.renderer.framebuffers f ?_⟩
  rcases List.mem_append.1 hf with hf | hf
  · exact List.mem_of_getElem? (Option.mem_toList.1 hf)
  · obtain ⟨-, hf⟩ := Option.ite_none_right_eq_some.1 (Option.mem_toList.1 hf)
    exact List.mem_of_getElem? hf

theorem picture (h : Current context v) : ∀ c ∈ objects v.picture, c = context := by
  intro c hc
  simp only [objects, List.mem_append, List.mem_flatMap, List.mem_singleton] at hc
  rcases hc with (⟨b, hb, hc⟩ | ⟨pass, hpass, hc⟩) | rfl
  · obtain ⟨-, hb⟩ := Option.ite_none_right_eq_some.1 (Option.mem_toList.1 hb)
    obtain rfl := Option.some.inj hb
    rcases hc with hc | hc
    · exact h.background c (Option.mem_toList.1 hc)
    · exact h.blurFramebuffers c (Option.mem_toList.1 hc)
  · obtain ⟨i, hi, rfl⟩ := List.mem_mapIdx.1 hpass
    obtain ⟨hprogram, hframebuffers⟩ := h.drawPass i (List.getElem_mem hi)
    rcases List.mem_cons.1 hc with rfl | hc
    · exact hprogram
    · obtain ⟨f, hf, rfl⟩ := List.mem_map.1 hc
      exact hframebuffers f hf
  · exact h.renderer.texture

theorem drawn (h : Current context v) :
    ∀ picture ∈ (v.renderFrame context).2, ∀ c ∈ objects picture, c = context := by
  unfold Video.renderFrame
  split
  · rintro picture ⟨⟩
  · rintro picture ⟨⟩
    exact h.prepare.picture

theorem make (renderingOptions : RenderingOptions) (shaderConfig : Config) (skipDuplicateFrames ambientMode : Bool)
    (videoLayout : VideoLayout K) :
    Current context (Video.make context renderingOptions shaderConfig skipDuplicateFrames ambientMode videoLayout :
      Video Nat K D) := by
  refine updateProgram ⟨nofun, nofun, nofun, ?_⟩
  show RendererCurrent context (Video.initializeRenderer ..)
  unfold Video.initializeRenderer
  split
  · exact RendererCurrent.initializeBuffers _
  · exact ⟨nofun, rfl⟩

theorem handleVideoRefresh (h : Current context v) (callbacks : List (Option (Frame D))) :
    Current context (handleVideoRefresh context v callbacks).1 ∧
      ∀ picture ∈ (ContextLoss.handleVideoRefresh context v callbacks).2, ∀ c ∈ objects picture, c = context := by
  induction callbacks generalizing v with
  | nil => exact ⟨h, nofun⟩
  | cons data callbacks ih =>
    have hnew := h.onNewFrame data
    simp only [ContextLoss.handleVideoRefresh]
    split
    · obtain ⟨hrest, hpictures⟩ := ih hnew.renderFrame
      refine ⟨hrest, fun picture hpicture => ?_⟩
      rcases List.mem_append.1 hpicture with hpicture | hpicture
      · exact hnew.drawn picture (Option.mem_toList.1 hpicture)
      · exact hpictures picture hpicture
    · exact ih hnew

theorem nativeStep (h : Current context v) (callbacks : List (Option (Frame D))) (geometry : Option (Nat × Nat)) :
    Current context (nativeStep context callbacks geometry v).1 ∧
      ∀ picture ∈ (ContextLoss.nativeStep context callbacks geometry v).2, ∀ c ∈ objects picture, c = context := by
  obtain ⟨hrun, hpictures⟩ := h.handleVideoRefresh callbacks
  simp only [ContextLoss.nativeStep]
  split
  · exact ⟨hrun.updateGeometry geometry, by simpa using hpictures⟩
  · refine ⟨hrun.renderFrame.updateGeometry geometry, fun picture hpicture => ?_⟩
    rcases List.mem_append.1 hpicture with hpicture | hpicture
    · exact hpictures picture hpicture
    · exact hrun.drawn picture (Option.mem_toList.1 hpicture)

end Current

/-! ### The texture of an image renderer -/

/-- Only a `FramebufferRenderer` ever makes its texture anew. -/
structure Kept (v w : Video Nat K D) : Prop where
  kind : w.renderer.kind = v.renderer.kind
  skipDuplicateFrames : w.skipDuplicateFrames = v.skipDuplicateFrames
  texture : v.renderer.kind ≠ .framebuffer → w.renderer.texture.context = v.renderer.texture.context

namespace Kept
variable {v w : Video Nat K D}

theorem refl (v : Video Nat K D) : Kept v v := ⟨rfl, rfl, fun _ => rfl⟩

theorem trans {u : Video Nat K D} (h : Kept u v) (h' : Kept v w) : Kept u w where
  kind := h'.kind.trans h.kind
  skipDuplicateFrames := h'.skipDuplicateFrames.trans h.skipDuplicateFrames
  texture hkind := (h'.texture (by rwa [h.kind])).trans (h.texture hkind)

theorem onNewFrame (v : Video Nat K D) (data : Option (Frame D)) : Kept v (v.onNewFrame context data) := by
  cases data with
  | none => exact refl v
  | some frame =>
    refine ⟨Renderer.onNewFrame_kind .., rfl, fun hkind => ?_⟩
    simp only [Video.onNewFrame, Renderer.onNewFrame]
    split
    · rfl
    · dsimp only
      split <;> rfl
    · next heq => exact absurd heq hkind

theorem updateProgram (v : Video Nat K D) : Kept v (v.updateProgram context) := by
  unfold Video.updateProgram
  split
  · exact refl v
  · have hset := Renderer.setShaders_eq v.renderer (getShader v.requestedShaderConfig)
    exact ⟨(congrArg Renderer.kind hset :), rfl, fun _ => (congrArg (fun r => r.texture.context) hset :)⟩

theorem prepare (v : Video Nat K D) : Kept v (v.prepare context) := by
  refine trans ?_ (updateProgram _)
  dsimp only
  split <;> exact ⟨rfl, rfl, fun _ => rfl⟩

theorem renderFrame (v : Video Nat K D) : Kept v (v.renderFrame context).1 := by
  unfold Video.renderFrame
  split
  · exact refl v
  · exact prepare v

theorem updateGeometry (v : Video Nat K D) (geometry : Option (Nat × Nat)) : Kept v (updateGeometry geometry v) := by
  unfold ContextLoss.updateGeometry
  split
  · unfold Video.updateRendererSize Renderer.updateRenderedResolution
    split
    · next heq =>
      split
      · exact ⟨rfl, rfl, fun hkind => absurd heq hkind⟩
      · exact refl v
    · exact refl v
    · exact refl v
  · exact refl v

theorem handleVideoRefresh (v : Video Nat K D) (callbacks : List (Option (Frame D))) :
    Kept v (handleVideoRefresh context v callbacks).1 := by
  induction callbacks generalizing v with
  | nil => exact refl v
  | cons data callbacks ih =>
    have hnew : Kept v (v.onNewFrame context data) := onNewFrame v data
    simp only [ContextLoss.handleVideoRefresh]
    split
    · exact (hnew.trans (renderFrame _)).trans (ih _)
    · exact hnew.trans (ih _)

theorem nativeStep (v : Video Nat K D) (callbacks : List (Option (Frame D))) (geometry : Option (Nat × Nat)) :
    Kept v (nativeStep context callbacks geometry v).1 := by
  have hrun : Kept v (ContextLoss.handleVideoRefresh context v callbacks).1 := handleVideoRefresh v callbacks
  simp only [ContextLoss.nativeStep]
  split
  · exact hrun.trans (updateGeometry _ geometry)
  · exact (hrun.trans (renderFrame _)).trans (updateGeometry _ geometry)

end Kept

section
variable {v : Video Nat K D}

theorem rendersInVideoCallback_iff (r : Renderer Nat D) : r.rendersInVideoCallback = true ↔ r.kind = .framebuffer :=
  beq_iff_eq

theorem handleVideoRefresh_image (hkind : v.renderer.kind ≠ .framebuffer) (callbacks : List (Option (Frame D))) :
    (handleVideoRefresh context v callbacks).2 = [] ∧
      (handleVideoRefresh context v callbacks).1.isDirty = (v.isDirty || callbacks.any Option.isSome) := by
  induction callbacks generalizing v with
  | nil => simp [handleVideoRefresh]
  | cons data callbacks ih =>
    have hnew : (v.onNewFrame context data).renderer.kind ≠ .framebuffer := by
      rwa [(Kept.onNewFrame v data).kind]
    have hdirty : (v.onNewFrame context data).isDirty = (v.isDirty || data.isSome) := by
      cases data <;> simp [Video.onNewFrame]
    obtain ⟨hpictures, hrest⟩ := ih hnew
    simp only [handleVideoRefresh]
    rw [if_neg (mt (rendersInVideoCallback_iff _).1 hnew), hpictures, hrest, hdirty, List.any_cons, Bool.or_assoc]
    exact ⟨rfl, rfl⟩

theorem nativeStep_image (hkind : v.renderer.kind ≠ .framebuffer) (callbacks : List (Option (Frame D)))
    (geometry : Option (Nat × Nat)) :
    ((nativeStep context callbacks geometry v).2 = [] ↔
        (!v.skipDuplicateFrames || v.isDirty || callbacks.any Option.isSome) = false) ∧
      ∀ picture ∈ (nativeStep context callbacks geometry v).2,
        picture.texture.context = v.renderer.texture.context := by
  obtain ⟨hpictures, hdirty⟩ : (handleVideoRefresh context v callbacks).2 = [] ∧ _ :=
    handleVideoRefresh_image hkind callbacks
  have hrun : Kept v (handleVideoRefresh context v callbacks).1 := Kept.handleVideoRefresh v callbacks
  have himage : (handleVideoRefresh context v callbacks).1.renderer.kind ≠ .framebuffer := by rwa [hrun.kind]
  have hskips : (handleVideoRefresh context v callbacks).1.skips =
      !(!v.skipDuplicateFrames || v.isDirty || callbacks.any Option.isSome) := by
    rw [Video.skips, hrun.skipDuplicateFrames, hdirty]
    simp [Bool.or_assoc]
  simp only [nativeStep]
  rw [if_neg (mt (rendersInVideoCallback_iff _).1 himage), hpictures, List.nil_append, Video.renderFrame, hskips]
  split
  · next hnone => simpa using hnone
  · next hsome =>
    refine ⟨by simpa using hsome, fun picture hpicture => ?_⟩
    obtain rfl := Option.some.inj (Option.mem_toList.1 hpicture)
    exact ((Kept.prepare _).texture himage).trans (hrun.texture hkind)

end

/-! ### Runs -/

/-- The video of a view whose game was loaded in `loadedIn`. -/
structure Held (session : Session) (loadedIn context resets : Nat) (v : Video Nat K D) : Prop where
  kind : v.renderer.kind = .framebuffer ↔ session.hardwareAccelerated = true
  current : loadedIn = context → Current context v
  texture : session.hardwareAccelerated = false → v.renderer.texture.context = loadedIn
  resets : session.hardwareAccelerated = true → resets = if loadedIn = context then 1 else 0

structure Inv (session : Session) (s : State K D) : Prop where
  loadedIn : s.loadedIn ≤ s.context
  loaded : s.isGameLoaded = s.video.isSome
  unloaded : s.isGameLoaded = false → s.loadedIn = 0 ∧ s.resets = 0
  video : ∀ v ∈ s.video, Held session s.loadedIn s.context s.resets v

variable {session : Session} {s t : State K D}

theorem inv_start (shaderConfig : Config) : Inv session (start shaderConfig : State K D) where
  loadedIn := Nat.le_refl 0
  loaded := rfl
  unloaded _ := ⟨rfl, rfl⟩
  video v hv := absurd hv (Option.not_mem_none v)

namespace Held
variable {loadedIn resets : Nat} {v w : Video Nat K D}

theorem kept (h : Held session loadedIn context resets v) (hkept : Kept v w)
    (hcurrent : Current context v → Current context w) : Held session loadedIn context resets w where
  kind := by rw [hkept.kind]; exact h.kind
  current hloaded := hcurrent (h.current hloaded)
  texture hsoftware :=
    (hkept.texture (mt h.kind.1 (by simp [hsoftware]))).trans (h.texture hsoftware)
  resets := h.resets

/-- A new context leaves it with the one of before. -/
theorem lost (h : Held session loadedIn context resets v) (hle : loadedIn ≤ context) :
    Held session loadedIn (context + 1) 0 v where
  kind := h.kind
  current hloaded := absurd hloaded (by omega)
  texture := h.texture
  resets _ := (if_neg (by omega)).symm

theorem make (renderingOptions : RenderingOptions) (shaderConfig : Config) (ambientMode : Bool)
    (videoLayout : VideoLayout K) (hhardware : renderingOptions.hardwareAccelerated = session.hardwareAccelerated) :
    Held session context context (if session.hardwareAccelerated then 1 else 0)
      (Video.make context renderingOptions shaderConfig session.skipDuplicateFrames ambientMode videoLayout :
        Video Nat K D) where
  kind := by
    rw [Video.make, (Kept.updateProgram _).kind, ← hhardware]
    show (Video.initializeRenderer ..).kind = _ ↔ _
    unfold Video.initializeRenderer
    cases renderingOptions.hardwareAccelerated
    · by_cases hversion : renderingOptions.openglESVersion ≥ 3 <;> simp [hversion]
    · simp [Renderer.initializeBuffers]
  current _ := Current.make ..
  texture _ := (Current.make ..).renderer.texture
  resets hhardware := by simp [hhardware]

end Held

namespace Inv

/-- A change of the video that a call makes in the current context. -/
theorem map_video (h : Inv session s) {f : Video Nat K D → Video Nat K D} (hkept : ∀ v, Kept v (f v))
    (hcurrent : ∀ v, Current s.context v → Current s.context (f v)) :
    Inv session { s with video := s.video.map f } where
  loadedIn := h.loadedIn
  loaded := h.loaded.trans Option.isSome_map.symm
  unloaded := h.unloaded
  video := by
    intro w hw
    obtain ⟨v, hv, rfl⟩ := Option.mem_map.1 hw
    exact (h.video v hv).kept (hkept v) (hcurrent v)

theorem setShaderConfig (h : Inv session s) (shaderConfig : Config) :
    Inv session { s with fragmentShaderConfig := shaderConfig } :=
  ⟨h.loadedIn, h.loaded, h.unloaded, h.video⟩

theorem setEmulationReady (h : Inv session s) (isEmulationReady : Bool) :
    Inv session (if s.isAborted then s else { s with isEmulationReady := isEmulationReady }) := by
  split
  · exact h
  · exact ⟨h.loadedIn, h.loaded, h.unloaded, h.video⟩

theorem createContext (h : Inv session s) :
    Inv session { s with
      context := s.context + 1, isSurfacePending := true, isSurfaceCreated := false, resets := 0 } where
  loadedIn := Nat.le_succ_of_le h.loadedIn
  loaded := h.loaded
  unloaded hunloaded := ⟨(h.unloaded hunloaded).1, rfl⟩
  video v hv := (h.video v hv).lost h.loadedIn

theorem onSurfaceCreated {loading : Loading K} {es : List (Picture Nat K D)} (h : Inv session s)
    (hstep : step session s (.onSurfaceCreated loading) = some (t, es)) : Inv session t := by
  simp only [step] at hstep
  obtain ⟨-, hstep⟩ := Option.ite_none_right_eq_some.1 hstep
  split at hstep
  · obtain ⟨rfl, -⟩ := Prod.mk.inj (Option.some.inj hstep)
    exact ⟨h.loadedIn, h.loaded, h.unloaded, h.video⟩
  next hloads =>
  have hunloaded : s.isGameLoaded = false := by
    rw [Bool.or_eq_true, not_or] at hloads
    simpa using hloads.2
  cases loading with
  | loaded width height videoLayout =>
    obtain ⟨rfl, -⟩ := Prod.mk.inj (Option.some.inj hstep)
    refine ⟨Nat.le_refl _, rfl, nofun, ?_⟩
    rintro v ⟨⟩
    rw [(h.unloaded hunloaded).2]
    exact Held.make _ _ _ _ rfl
  | throwsRetroException =>
    obtain ⟨rfl, -⟩ := Prod.mk.inj (Option.some.inj hstep)
    exact ⟨h.loadedIn, h.loaded, h.unloaded, h.video⟩
  | throws =>
    obtain ⟨rfl, -⟩ := Prod.mk.inj (Option.some.inj hstep)
    exact ⟨h.loadedIn, h.loaded, h.unloaded, h.video⟩

end Inv

/-- A frame is drawn only from what is there, and only if nothing has gone wrong before. -/
theorem onDrawFrame_step {callbacks : List (Option (Frame D))} {geometry : Option (Nat × Nat)}
    {es : List (Picture Nat K D)} (h : step session s (.onDrawFrame callbacks geometry) = some (t, es)) :
    (t = s ∧ es = [] ∧ (s.isAborted = true ∨ s.isEmulationReady = false ∨ s.video = none)) ∨
      s.isAborted = false ∧ s.isEmulationReady = true ∧ ∃ v, s.video = some v ∧
        t = { s with video := some (nativeStep s.context callbacks geometry v).1 } ∧
        es = (nativeStep s.context callbacks geometry v).2 := by
  simp only [step] at h
  split at h
  · cases h
  split at h
  · next haborted =>
    obtain ⟨rfl, rfl⟩ := Prod.mk.inj (Option.some.inj h)
    exact .inl ⟨rfl, rfl, .inl haborted⟩
  next haborted =>
  split at h
  · next hready =>
    split at h
    · next v hv =>
      obtain ⟨rfl, rfl⟩ := Prod.mk.inj (Option.some.inj h)
      exact .inr ⟨by simpa using haborted, hready, v, hv, rfl, rfl⟩
    · next hnone =>
      obtain ⟨rfl, rfl⟩ := Prod.mk.inj (Option.some.inj h)
      exact .inl ⟨rfl, rfl, .inr (.inr hnone)⟩
  · next hready =>
    obtain ⟨rfl, rfl⟩ := Prod.mk.inj (Option.some.inj h)
    exact .inl ⟨rfl, rfl, .inr (.inl (by simpa using hready))⟩

theorem context_ne_zero {callbacks : List (Option (Frame D))} {geometry : Option (Nat × Nat)}
    {es : List (Picture Nat K D)} (h : step session s (.onDrawFrame callbacks geometry) = some (t, es)) :
    s.context ≠ 0 := by
  simp only [step] at h
  split at h
  · cases h
  · next hcalled => exact fun hzero => hcalled (.inl hzero)

theorem inv_step {a : Action K D} {es : List (Picture Nat K D)} (h : Inv session s)
    (hstep : step session s a = some (t, es)) : Inv session t := by
  cases a with
  | createContext =>
    obtain ⟨rfl, -⟩ := Prod.mk.inj (Option.some.inj hstep)
    exact h.createContext
  | onSurfaceCreated loading => exact h.onSurfaceCreated hstep
  | updateLayout f =>
    obtain ⟨rfl, -⟩ := Prod.mk.inj (Option.some.inj hstep)
    exact h.map_video (fun _ => ⟨rfl, rfl, fun _ => rfl⟩)
      fun _ hv => ⟨hv.programs, hv.background, hv.blurFramebuffers, hv.renderer⟩
  | setShaderConfig shaderConfig =>
    obtain ⟨rfl, -⟩ := Prod.mk.inj (Option.some.inj hstep)
    exact (h.setShaderConfig shaderConfig).map_video (fun _ => ⟨rfl, rfl, fun _ => rfl⟩)
      fun _ hv => ⟨hv.programs, hv.background, hv.blurFramebuffers, hv.renderer⟩
  | resume =>
    obtain ⟨-, heq⟩ := Option.ite_none_right_eq_some.1 hstep
    obtain ⟨rfl, -⟩ := Prod.mk.inj (Option.some.inj heq)
    exact h.setEmulationReady true
  | pause =>
    obtain ⟨-, heq⟩ := Option.ite_none_right_eq_some.1 hstep
    obtain ⟨rfl, -⟩ := Prod.mk.inj (Option.some.inj heq)
    exact h.setEmulationReady false
  | onDrawFrame callbacks geometry =>
    obtain ⟨rfl, -⟩ | ⟨-, -, v, hv, rfl, -⟩ := onDrawFrame_step hstep
    · exact h
    · have hsome : s.video.isSome = true := congrArg Option.isSome hv
      refine ⟨h.loadedIn, h.loaded.trans hsome, h.unloaded, ?_⟩
      rintro w ⟨⟩
      exact (h.video v hv).kept (Kept.nativeStep v callbacks geometry)
        fun hcurrent => (hcurrent.nativeStep callbacks geometry).1
  | abort =>
    obtain ⟨rfl, -⟩ := Prod.mk.inj (Option.some.inj hstep)
    exact ⟨h.loadedIn, h.loaded, h.unloaded, h.video⟩

/-- A core that draws by itself is not told of a context after the one it was loaded in. -/
theorem Inv.resets_of_lost (h : Inv session s) (hlost : s.loadedIn ≠ s.context)
    (hhardware : session.hardwareAccelerated = true) : s.resets = 0 := by
  rcases hv : s.video with _ | v
  · exact (h.unloaded (h.loaded.trans (congrArg Option.isSome hv))).2
  · exact ((h.video v hv).resets hhardware).trans (if_neg hlost)

/-- In the context that the game was loaded in, nothing is amiss. -/
theorem law_of_current {callbacks : List (Option (Frame D))} {geometry : Option (Nat × Nat)}
    {es : List (Picture Nat K D)} (h : Inv session s)
    (hstep : step session s (.onDrawFrame callbacks geometry) = some (t, es)) (hcurrent : s.loadedIn = s.context) :
    (∀ picture ∈ es, ∀ c ∈ objects picture, c = s.context) ∧
      (session.hardwareAccelerated = true → s.resets = 1) := by
  constructor
  · obtain ⟨-, rfl, -⟩ | ⟨-, -, v, hv, -, rfl⟩ := onDrawFrame_step hstep
    · exact nofun
    · exact (((h.video v hv).current hcurrent).nativeStep callbacks geometry).2
  · intro hhardware
    rcases hv : s.video with _ | v
    · have hunloaded : s.isGameLoaded = false := h.loaded.trans (congrArg Option.isSome hv)
      exact absurd (hcurrent.symm.trans (h.unloaded hunloaded).1) (context_ne_zero hstep)
    · exact ((h.video v hv).resets hhardware).trans (if_pos hcurrent)

/-- In a later one, all that is drawn is drawn with a texture of the context before. -/
theorem law_iff_of_lost {callbacks : List (Option (Frame D))} {geometry : Option (Nat × Nat)}
    {es : List (Picture Nat K D)} (h : Inv session s)
    (hstep : step session s (.onDrawFrame callbacks geometry) = some (t, es)) (hlost : s.loadedIn ≠ s.context)
    (hsoftware : session.hardwareAccelerated = false) :
    (∀ picture ∈ es, ∀ c ∈ objects picture, c = s.context) ↔ s.draws callbacks = false := by
  obtain ⟨-, rfl, hidle⟩ | ⟨haborted, hready, v, hv, -, rfl⟩ := onDrawFrame_step hstep
  · refine iff_of_true nofun ?_
    obtain haborted | hready | hnone := hidle
    · simp [State.draws, haborted]
    · simp [State.draws, hready]
    · simp [State.draws, hnone]
  · have hheld := h.video v hv
    have hkind : v.renderer.kind ≠ .framebuffer := mt hheld.kind.1 (by simp [hsoftware])
    obtain ⟨hnil, htexture⟩ : ((nativeStep s.context callbacks geometry v).2 = [] ↔ _) ∧ _ :=
      nativeStep_image hkind callbacks geometry
    have hdraws : s.draws callbacks = (!v.skipDuplicateFrames || v.isDirty || callbacks.any Option.isSome) := by
      simp [State.draws, haborted, hready, hv]
    rw [hdraws, ← hnil, List.eq_nil_iff_forall_not_mem]
    refine forall_congr' fun picture => imp_congr_right fun hpicture => iff_of_false (fun hobjects => ?_) (by simp)
    have hcontext := hobjects picture.texture.context (by simp [objects])
    exact hlost ((hheld.texture hsoftware).symm.trans ((htexture picture hpicture).symm.trans hcontext))

theorem law_iff {a : Action K D} {es : List (Picture Nat K D)} (h : Inv session s)
    (hstep : step session s a = some (t, es)) : Law session s a t es ↔ Condition session s a t es := by
  cases a with
  | onDrawFrame callbacks geometry =>
    refine imp_congr_right fun _ => ?_
    by_cases hcurrent : s.loadedIn = s.context
    · exact iff_of_true (law_of_current h hstep hcurrent) (.inl hcurrent)
    · cases hhardware : session.hardwareAccelerated
      · rw [law_iff_of_lost h hstep hcurrent hhardware]
        simp [hcurrent]
      · simp [hcurrent, h.resets_of_lost hcurrent hhardware]
  | _ => exact Iff.rfl

/-- Along a run frames are drawn with objects of the current context, by a core that was told of it, exactly if
in each of them the game was loaded in that context, or nothing is drawn. -/
theorem recovered_iff (session : Session) (shaderConfig : Config) (as : List (Action K D)) :
    Along (step session) (Law session) (start shaderConfig) as ↔
      Along (step session) (Condition session) (start shaderConfig) as :=
  along_iff (I := Inv session) (G := Law session) (C := Condition session) law_iff
    (fun h hstep _ => inv_step h hstep) (inv_start shaderConfig) as

end

/-- The context is lost after the game was loaded, and the next frame is drawn with the texture of before. -/
theorem frame_of_lost_context : ¬ Along (step ⟨3, false, false, false⟩) (Law ⟨3, false, false, false⟩)
    (start ⟨.default, [], List.nodup_nil⟩ : State Unit Unit)
    [.createContext, .onSurfaceCreated (.loaded 1 1 ⟨false, (), (), ⟨(), (), (), ()⟩, 0, 0, []⟩), .resume,
      .createContext, .onSurfaceCreated .throws, .onDrawFrame [some ⟨1, 1, ()⟩] none] := by
  rintro ⟨-, -, -, -, -, hlaw, -⟩
  exact absurd ((hlaw rfl).1 _ (List.mem_singleton_self _) 1 (by decide)) (by decide)

end SweetHome.ContextLoss
