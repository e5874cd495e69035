import SweetHome.Lib.Run
import SweetHome.Rendering
import Mathlib.Logic.Function.Basic

/-!
# The frames of a core that draws by itself

Such a core asks for the framebuffer at the start of `retro_run`, draws into it and calls the video refresh
callback, which draws the colour attachment on screen. A framebuffer that is to be rebuilt, for another size or
for the shaders that the frame before has loaded, is rebuilt by the callback, and what the core has drawn goes
with the old one. A frame is shown from where it was drawn exactly if nothing is to be rebuilt (`frame_shown_iff`).

A framebuffer is told from another by the callback that created it: GL can give its name out again.
-/

namespace SweetHome.HardwareFrames
open Step ShaderManager Rendering

section
variable (K D : Type)

inductive Action where
  | getCurrentFramebuffer
  /-- The core draws into the framebuffer that it was told. -/
  | draw (data : D)
  | videoRefresh (data : Option (Frame Unit))
  | updateRendererSize (width height : Nat)
  | updateShaderType (shaderConfig : Config)
  | updateLayout (f : VideoLayout K → VideoLayout K)

structure State where
  video : Video Nat K Unit
  /-- Of the framebuffers that are created next. -/
  now : Nat
  /-- Of the colour attachment of each framebuffer; `none` is black. -/
  contents : Nat → Option D := fun _ => none
  /-- What the core was told in this `retro_run`. -/
  framebuffer : Option Nat := none
  /-- What it has drawn there. -/
  drawn : Option D := none

end

section
variable {K D : Type}

def getCurrentFramebuffer (v : Video Nat K Unit) : Nat := v.renderer.texture.context

def handleVideoRefresh (now : Nat) (data : Option (Frame Unit)) (v : Video Nat K Unit) :
    Video Nat K Unit × Option (Picture Nat K Unit) :=
  let v := v.onNewFrame now data
  if v.renderer.rendersInVideoCallback then v.renderFrame now else (v, none)

/-- A core tells of a frame that it has drawn, or of none. -/
def step : Step (State K D) (Action K D) (Picture Nat K Unit)
  | s, .getCurrentFramebuffer =>
    some ({ s with framebuffer := some (getCurrentFramebuffer s.video), drawn := none }, [])
  | s, .draw data =>
    s.framebuffer.map fun framebuffer =>
      ({ s with contents := Function.update s.contents framebuffer (some data), drawn := some data }, [])
  | s, .videoRefresh data =>
    if s.framebuffer.isSome ∧ (data.isSome → s.drawn.isSome) then
      let (video, picture) := handleVideoRefresh s.now data s.video
      some ({ video := video, now := s.now + 1, contents := s.contents }, picture.toList)
    else none
  | s, .updateRendererSize width height =>
    some ({ s with video := s.video.updateRendererSize width height }, [])
  | s, .updateShaderType shaderConfig => some ({ s with video := s.video.updateShaderType shaderConfig }, [])
  | s, .updateLayout f => some ({ s with video := s.video.updateLayout f }, [])

def init (renderingOptions : RenderingOptions) (shaderConfig : Config) (skipDuplicateFrames ambientMode : Bool)
    (videoLayout : VideoLayout K) : State K D where
  video := Video.make 0 { renderingOptions with hardwareAccelerated := true } shaderConfig skipDuplicateFrames
    ambientMode videoLayout
  now := 1

/-! ### The law and the condition -/

/-- The frame is drawn on screen from the framebuffer that the core was told, and what it drew is still there. -/
def Shown (s : State K D) (a : Action K D) (t : State K D) (es : List (Picture Nat K Unit)) : Prop :=
  match a with
  | .videoRefresh (some _) =>
    ∃ picture, es = [picture] ∧ s.framebuffer = some picture.texture.context ∧
      t.contents picture.texture.context = s.drawn
  | _ => True

/-- No other size has been set and no other shaders have been loaded since the framebuffer was built. -/
def Settled (s : State K D) (a : Action K D) (_ : State K D) (_ : List (Picture Nat K Unit)) : Prop :=
  match a with
  | .videoRefresh (some _) => s.video.renderer.isDirty = false
  | _ => True

/-- The framebuffer that the core was told is the one of the renderer, and has what it drew. -/
structure Inv (s : State K D) : Prop where
  kind : s.video.renderer.kind = .framebuffer
  now : s.video.renderer.texture.context < s.now
  framebuffer : ∀ c ∈ s.framebuffer, c = s.video.renderer.texture.context
  drawn : ∀ data ∈ s.drawn, s.contents s.video.renderer.texture.context = some data

/-! ### What the callback draws -/

section
variable (now : Nat)

theorem setShaders_texture (shaders : Chain) (r : Renderer Nat Unit) :
    (r.setShaders shaders).texture = r.texture ∧ (r.setShaders shaders).kind = r.kind := by
  rw [Renderer.setShaders_eq]
  exact ⟨rfl, rfl⟩

theorem updateProgram_texture (v : Video Nat K Unit) :
    (v.updateProgram now).renderer.texture = v.renderer.texture ∧
      (v.updateProgram now).renderer.kind = v.renderer.kind := by
  unfold Video.updateProgram
  split
  · exact ⟨rfl, rfl⟩
  · exact setShaders_texture _ v.renderer

theorem prepare_texture (v : Video Nat K Unit) :
    (v.prepare now).renderer.texture = v.renderer.texture ∧ (v.prepare now).renderer.kind = v.renderer.kind := by
  unfold Video.prepare
  dsimp only
  split
  · exact updateProgram_texture now _
  · exact updateProgram_texture now _

theorem onNewFrame_framebuffer {r : Renderer Nat Unit} (hkind : r.kind = .framebuffer) (frame : Frame Unit) :
    (r.onNewFrame now frame).texture.context = if r.isDirty then now else r.texture.context := by
  rcases hdirty : r.isDirty with _ | _ <;> simp [Renderer.onNewFrame, Renderer.initializeBuffers, hkind, hdirty]

theorem handleVideoRefresh_frame {v : Video Nat K Unit} (hkind : v.renderer.kind = .framebuffer)
    (frame : Frame Unit) :
    ∃ picture, (handleVideoRefresh now (some frame) v).2 = some picture ∧
      picture.texture = (handleVideoRefresh now (some frame) v).1.renderer.texture ∧
      (handleVideoRefresh now (some frame) v).1.renderer.kind = .framebuffer ∧
      picture.texture.context = if v.renderer.isDirty then now else v.renderer.texture.context := by
  obtain ⟨w, hw⟩ : ∃ w, w = v.onNewFrame now (some frame) := ⟨_, rfl⟩
  have hwkind : w.renderer.kind = .framebuffer := by
    rw [hw]
    exact (Renderer.onNewFrame_kind now v.renderer frame).trans hkind
  have hcallback : w.renderer.rendersInVideoCallback = true := by simp [Renderer.rendersInVideoCallback, hwkind]
  have hskips : w.skips = false := by simp [hw, Video.skips, Video.onNewFrame]
  have hdraws : handleVideoRefresh now (some frame) v = (w.prepare now, some (w.prepare now).picture) := by
    rw [handleVideoRefresh, ← hw]
    simp [hcallback, Video.renderFrame, hskips]
  obtain ⟨htexture, hkind'⟩ := prepare_texture now w
  rw [hdraws]
  refine ⟨_, rfl, rfl, hkind'.trans hwkind, ?_⟩
  have hcontext := onNewFrame_framebuffer now hkind frame
  rw [Video.picture, htexture, hw, ← hcontext]
  rfl

theorem handleVideoRefresh_none (v : Video Nat K Unit) :
    (handleVideoRefresh now none v).1.renderer.texture = v.renderer.texture ∧
      (handleVideoRefresh now none v).1.renderer.kind = v.renderer.kind := by
  unfold handleVideoRefresh Video.onNewFrame
  dsimp only
  split
  · unfold Video.renderFrame
    split
    · exact ⟨rfl, rfl⟩
    · exact prepare_texture now v
  · exact ⟨rfl, rfl⟩

theorem updateRenderedResolution_texture (width height : Nat) (r : Renderer Nat Unit) :
    (r.updateRenderedResolution width height).texture = r.texture ∧
      (r.updateRenderedResolution width height).kind = r.kind := by
  unfold Renderer.updateRenderedResolution
  split
  · split
    · exact ⟨rfl, rfl⟩
    · exact ⟨rfl, rfl⟩
  · exact ⟨rfl, rfl⟩
  · exact ⟨rfl, rfl⟩

end

/-! ### Runs -/

section
variable {s t : State K D} {a : Action K D} {es : List (Picture Nat K Unit)}

theorem videoRefresh_eq_some {data : Option (Frame Unit)} (h : step s (.videoRefresh data) = some (t, es)) :
    s.framebuffer.isSome ∧ (data.isSome → s.drawn.isSome) ∧
      t = { video := (handleVideoRefresh s.now data s.video).1, now := s.now + 1, contents := s.contents } ∧
      es = (handleVideoRefresh s.now data s.video).2.toList := by
  simp only [step] at h
  split at h
  · next hguard =>
    simp only [Option.some.injEq, Prod.mk.injEq] at h
    exact ⟨hguard.1, hguard.2, h.1.symm, h.2.symm⟩
  · exact absurd h nofun

theorem Inv.map_video (h : Inv s) {video : Video Nat K Unit}
    (hkeeps : video.renderer.texture = s.video.renderer.texture ∧ video.renderer.kind = s.video.renderer.kind) :
    Inv { s with video := video } where
  kind := hkeeps.2.trans h.kind
  now := by rw [hkeeps.1]; exact h.now
  framebuffer := by rw [hkeeps.1]; exact h.framebuffer
  drawn := by rw [hkeeps.1]; exact h.drawn

theorem inv_step (h : Inv s) (hstep : step s a = some (t, es)) : Inv t := by
  cases a with
  | getCurrentFramebuffer =>
    simp only [step, Option.some.injEq, Prod.mk.injEq] at hstep
    obtain ⟨rfl, -⟩ := hstep
    exact { h with
      framebuffer := fun c hc => (Option.some.inj hc).symm
      drawn := nofun }
  | draw data =>
    obtain ⟨framebuffer, hframebuffer, hdrawn⟩ := Option.map_eq_some_iff.1 hstep
    simp only [Prod.mk.injEq] at hdrawn
    obtain ⟨rfl, -⟩ := hdrawn
    have htold := h.framebuffer framebuffer hframebuffer
    exact { h with
      drawn := fun data hdata => by
        rw [htold]
        exact (Function.update_self ..).trans hdata }
  | videoRefresh data =>
    obtain ⟨-, -, rfl, -⟩ := videoRefresh_eq_some hstep
    cases data with
    | some frame =>
      obtain ⟨picture, -, htexture, hkind, hcontext⟩ := handleVideoRefresh_frame s.now h.kind frame
      have hnow := h.now
      refine ⟨hkind, Nat.lt_succ_of_le ?_, nofun, nofun⟩
      rw [← htexture, hcontext]
      split
      · exact le_rfl
      · exact hnow.le
    | none =>
      obtain ⟨htexture, hkind⟩ := handleVideoRefresh_none s.now s.video
      refine ⟨hkind.trans h.kind, ?_, nofun, nofun⟩
      rw [htexture]
      exact Nat.lt_succ_of_lt h.now
  | updateRendererSize width height =>
    simp only [step, Option.some.injEq, Prod.mk.injEq] at hstep
    obtain ⟨rfl, -⟩ := hstep
    exact h.map_video (updateRenderedResolution_texture width height s.video.renderer)
  | updateShaderType shaderConfig =>
    simp only [step, Option.some.injEq, Prod.mk.injEq] at hstep
    obtain ⟨rfl, -⟩ := hstep
    exact h.map_video ⟨rfl, rfl⟩
  | updateLayout f =>
    simp only [step, Option.some.injEq, Prod.mk.injEq] at hstep
    obtain ⟨rfl, -⟩ := hstep
    exact h.map_video ⟨rfl, rfl⟩

theorem inv_init (renderingOptions : RenderingOptions) (shaderConfig : Config)
    (skipDuplicateFrames ambientMode : Bool) (videoLayout : VideoLayout K) :
    Inv (init renderingOptions shaderConfig skipDuplicateFrames ambientMode videoLayout : State K D) := by
  unfold init Video.make
  refine ⟨?_, ?_, nofun, nofun⟩
  · rw [(updateProgram_texture 0 _).2]
    rfl
  · rw [(updateProgram_texture 0 _).1]
    exact Nat.one_pos

theorem shown_iff_settled (h : Inv s) (hstep : step s a = some (t, es)) : Shown s a t es ↔ Settled s a t es := by
  cases a with
  | videoRefresh data =>
    cases data with
    | none => exact Iff.rfl
    | some frame =>
      obtain ⟨hframebuffer, hdrawn, rfl, rfl⟩ := videoRefresh_eq_some hstep
      obtain ⟨picture, hpicture, -, -, hcontext⟩ := handleVideoRefresh_frame s.now h.kind frame
      obtain ⟨c, hc⟩ := Option.isSome_iff_exists.1 hframebuffer
      obtain ⟨data, hdata⟩ := Option.isSome_iff_exists.1 (hdrawn rfl)
      have htold := h.framebuffer c hc
      have hnow := h.now
      simp only [Shown, Settled, hpicture, Option.toList_some, List.cons.injEq, and_true, exists_eq_left', hc,
        Option.some.injEq, hcontext]
      rcases hdirty : s.video.renderer.isDirty with _ | _
      · simp only [Bool.false_eq_true, if_false]
        exact iff_of_true ⟨htold, (h.drawn data hdata).trans hdata.symm⟩ trivial
      · simp only [if_true]
        exact iff_of_false (fun hsame => by omega) nofun
  | getCurrentFramebuffer | draw | updateRendererSize | updateShaderType | updateLayout => exact Iff.rfl

/-- Over all runs: each frame is shown from where it was drawn exactly if none finds a framebuffer to rebuild. -/
theorem frame_shown_iff (renderingOptions : RenderingOptions) (shaderConfig : Config)
    (skipDuplicateFrames ambientMode : Bool) (videoLayout : VideoLayout K) (as : List (Action K D)) :
    Along step Shown (init renderingOptions shaderConfig skipDuplicateFrames ambientMode videoLayout) as ↔
      Along step Settled (init renderingOptions shaderConfig skipDuplicateFrames ambientMode videoLayout) as :=
  along_iff shown_iff_settled (fun h hstep _ => inv_step h hstep) (inv_init ..) as

end

/-- A frame after a change of the geometry is black. -/
theorem black_after_resize :
    ¬ ∀ (renderingOptions : RenderingOptions) (shaderConfig : Config) (skipDuplicateFrames ambientMode : Bool)
      (videoLayout : VideoLayout Nat) (as : List (Action Nat Unit)),
      Along step Shown (init renderingOptions shaderConfig skipDuplicateFrames ambientMode videoLayout) as := by
  intro h
  let frame : Frame Unit := ⟨1, 1, ()⟩
  have hrun := h ⟨true, 1, 1, 3⟩ ⟨.default, [], List.nodup_nil⟩ false false ⟨false, 0, 1, ⟨0, 0, 1, 1⟩, 0, 0, []⟩
    [.getCurrentFramebuffer, .draw (), .videoRefresh (some frame), .updateRendererSize 2 2,
      .getCurrentFramebuffer, .draw (), .videoRefresh (some frame)]
  obtain ⟨-, -, -, -, -, -, ⟨picture, hpicture, htold, -⟩, -⟩ := hrun
  obtain rfl := List.singleton_inj.1 hpicture
  exact absurd htold (by decide)

end
end SweetHome.HardwareFrames
