import SweetHome.Lib.Run
import SweetHome.Rendering

/-!
# Frames that are not drawn again

With `skipDuplicateFrames`, `renderFrame` draws only after a frame with data. Nothing else marks the picture as
dirty, so a new layout or shader is not drawn before the next frame. What is on screen is what it would be
without, exactly as long as only frames with data change the picture, and the first call is one
(`skipping_iff`).
-/

namespace SweetHome.DuplicateFrames
open Step ShaderManager Rendering

section
variable (K D : Type)

/-- The calls of `Video` that each are followed by `renderFrame`. -/
inductive Action where
  /-- `none` repeats the last frame. -/
  | onNewFrame (data : Option (Frame D))
  | updateScreenSize (width height : Nat)
  | updateViewportSize (viewportRect : Rect K)
  | updateAspectRatio (aspectRatio : K)
  | updateRotation (rotation : K)
  | updateShaderType (shaderConfig : Config)

/-- Two of `Video` that are called alike, and what each has drawn last: a window keeps it. -/
structure State where
  plain : Video Unit K D
  skipping : Video Unit K D
  plainShown : Option (Picture Unit K D) := none
  skippingShown : Option (Picture Unit K D) := none

end

section
variable {K D : Type} [NatCast K] [Neg K] [Add K] [Sub K] [Mul K] [Div K] [LT K] [DecidableLT K]
variable (m : MathFunctions K)

def apply (a : Action K D) (v : Video Unit K D) : Video Unit K D :=
  match a with
  | .onNewFrame data => v.onNewFrame () data
  | .updateScreenSize width height => v.updateLayout (·.updateScreenSize m width height)
  | .updateViewportSize viewportRect => v.updateLayout (·.updateViewportSize m viewportRect)
  | .updateAspectRatio aspectRatio => v.updateLayout (·.updateAspectRatio m aspectRatio)
  | .updateRotation rotation => v.updateLayout (·.updateRotation m rotation)
  | .updateShaderType shaderConfig => v.updateShaderType shaderConfig

def step : Step (State K D) (Action K D) Empty := fun s a =>
  let plain := (apply m a s.plain).renderFrame ()
  let skipping := (apply m a s.skipping).renderFrame ()
  some ({
    plain := plain.1
    skipping := skipping.1
    plainShown := plain.2.or s.plainShown
    skippingShown := skipping.2.or s.skippingShown }, [])

def init (renderingOptions : RenderingOptions) (shaderConfig : Config) (videoLayout : VideoLayout K) :
    State K D where
  plain := Video.make () renderingOptions shaderConfig false false videoLayout
  skipping := Video.make () renderingOptions shaderConfig true false videoLayout

/-! ### The law, and when it holds -/

def Law (_ : State K D) (_ : Action K D) (t : State K D) (_ : List Empty) : Prop :=
  t.skippingShown = t.plainShown

/-- What a frame is drawn from of a layout. -/
def Looks (l l' : VideoLayout K) : Prop :=
  l.foregroundVertices = l'.foregroundVertices ∧ l.screenWidth = l'.screenWidth ∧ l.screenHeight = l'.screenHeight

/-- Where the shader `loaded` is loaded, the requested one is drawn with the programs of the shader `shown`. -/
def Draws (loaded : Option Config) (requested : Config) (shown : Option Config) : Prop :=
  (loaded.any fun loaded => loaded.same requested) = true ∨ shown.map getShader = some (getShader requested)

/-- Only frames with data change the picture, and the first call is one; a frame with data finds no shader
requested that has other programs than the one on screen. -/
def Condition (s : State K D) (a : Action K D) (_ : State K D) (_ : List Empty) : Prop :=
  match a with
  | .onNewFrame (some _) =>
    Draws s.skipping.loadedShaderType s.skipping.requestedShaderConfig s.plain.loadedShaderType
  | .onNewFrame none => s.plainShown ≠ none
  | .updateShaderType shaderConfig =>
    s.plainShown ≠ none ∧ Draws s.plain.loadedShaderType shaderConfig s.plain.loadedShaderType
  | _ => s.plainShown ≠ none ∧ Looks (apply m a s.plain).videoLayout s.plain.videoLayout

end

/-! ### Renderers that differ in what they are to rebuild -/

section
variable {D : Type} {r r' : Renderer Unit D}

/-- What a rebuild would make it. -/
def Built (r : Renderer Unit D) : Prop :=
  r.framebuffers = buildShaderPasses () r.lastFrameSize.1 r.lastFrameSize.2 r.shaders ∧
    r.texture.linear = r.shaders.linearTexture

/-- Only an image renderer for ES 3 may be about to rebuild what the other has, and to the same. -/
structure Alike (r r' : Renderer Unit D) : Prop where
  same : r = { r' with isDirty := r.isDirty }
  dirty : r.kind ≠ .imageES3 → r.isDirty = r'.isDirty
  built : r.kind = .imageES3 → r.isDirty = false ∨ r'.isDirty = false → Built r

theorem Alike.eq_of_isDirty (h : Alike r r') (hdirty : r.isDirty = r'.isDirty) : r = r' := by
  rw [h.same, hdirty]

theorem alike_self (h : r.kind = .imageES3 → r.isDirty = false → Built r) : Alike r r :=
  ⟨rfl, fun _ => rfl, fun hkind hclean => h hkind (or_self_iff.1 hclean)⟩

/-- A rebuild for a frame of the same size makes what is built what it was. -/
theorem onNewFrame_of_built (hkind : r.kind = .imageES3) (h : r.isDirty = false → Built r) (frame : Frame D) :
    r.onNewFrame () frame = Renderer.onNewFrame () frame { r with isDirty := true } := by
  rcases hdirty : r.isDirty with _ | _
  · obtain ⟨hframebuffers, hlinear⟩ := h hdirty
    by_cases hsize : r.lastFrameSize = (frame.width, frame.height)
    · rw [hsize] at hframebuffers
      simp [Renderer.onNewFrame, Renderer.initializeTextures, hkind, hdirty, hsize, ← hframebuffers, ← hlinear]
    · simp [Renderer.onNewFrame, Renderer.initializeTextures, hkind, hsize]
  · rw [← hdirty]

theorem Alike.onNewFrame (h : Alike r r') (frame : Frame D) : r.onNewFrame () frame = r'.onNewFrame () frame := by
  by_cases hdirty : r.isDirty = r'.isDirty
  · rw [h.eq_of_isDirty hdirty]
  · have hkind : r.kind = .imageES3 := by
      by_contra hne
      exact hdirty (h.dirty hne)
    have hkind' : r'.kind = .imageES3 := by rw [← hkind, h.same]
    have hbuilt' : r'.isDirty = false → Built r' := by
      intro hclean
      have hbuilt := h.built hkind (.inr hclean)
      rwa [h.same] at hbuilt
    rw [onNewFrame_of_built hkind (fun hclean => h.built hkind (.inl hclean)), onNewFrame_of_built hkind' hbuilt',
      h.same]

theorem built_onNewFrame (h : r.kind = .imageES3 → r.isDirty = false → Built r) (frame : Frame D)
    (hkind : r.kind = .imageES3) : Built (r.onNewFrame () frame) := by
  rw [onNewFrame_of_built hkind (h hkind)]
  simp [Renderer.onNewFrame, Renderer.initializeTextures, hkind, Built]

theorem Alike.setShaders_left (h : Alike r r') : Alike (r.setShaders r.shaders) r' := by
  rw [Renderer.setShaders_shaders]
  refine ⟨by rw [h.same], fun hkind => ?_, fun hkind hclean => ?_⟩
  · have hother : (r.kind == Kind.imageES3) = false := by simpa using hkind
    simpa [hother] using h.dirty hkind
  · have hES3 : (r.kind == Kind.imageES3) = true := by simpa using hkind
    exact h.built hkind (.inr (by simpa [hES3] using hclean))

theorem Alike.symm (h : Alike r r') : Alike r' r := by
  have hkind : r.kind = r'.kind := by rw [h.same]
  refine ⟨by rw [h.same], fun hne => (h.dirty (by rwa [hkind])).symm, fun hES3 hclean => ?_⟩
  have hbuilt := h.built (hkind.trans hES3) hclean.symm
  rwa [h.same] at hbuilt

end

/-! ### The two in step -/

section
variable {K D : Type}

/-- The chain is loaded: its programs, and the renderer has it. -/
structure Loaded (v : Video Unit K D) (shaders : Chain) : Prop where
  config : v.loadedShaderType.map getShader = some shaders
  shadersChain : v.shadersChain = Video.programs () shaders
  renderer : v.renderer.shaders = shaders

structure Related (s : State K D) : Prop where
  plain : s.plain.skipDuplicateFrames = false ∧ s.plain.ambientMode = false
  skipping : s.skipping.skipDuplicateFrames = true ∧ s.skipping.ambientMode = false
  clean : s.skipping.isDirty = false
  requested : s.skipping.requestedShaderConfig = s.plain.requestedShaderConfig
  videoLayout : s.skipping.videoLayout = s.plain.videoLayout
  loaded : ∃ shaders, Loaded s.plain shaders ∧ Loaded s.skipping shaders
  current : (s.plain.loadedShaderType.any fun loaded => loaded.same s.plain.requestedShaderConfig) = true
  renderer : Alike s.plain.renderer s.skipping.renderer
  shown : s.skippingShown = s.plainShown
  last : s.plainShown = none ∨ s.plainShown = some s.plain.picture

variable {s : State K D}

theorem Related.shown_iff (hs : Related s) (picture : Picture Unit K D) :
    s.skippingShown = some picture ↔ s.plainShown ≠ none ∧ picture = s.plain.picture := by
  rw [hs.shown]
  rcases hs.last with hlast | hlast
  · simp [hlast]
  · simp [hlast, eq_comm]

/-- A picture tells its programs. -/
theorem programs_of_picture_eq {v w : Video Unit K D} (h : v.picture = w.picture) :
    v.shadersChain = w.shadersChain := by
  rw [← Video.map_program_picture, h, Video.map_program_picture]

theorem picture_congr {v w : Video Unit K D} (hv : v.ambientMode = false) (hw : w.ambientMode = false)
    (hprograms : v.shadersChain = w.shadersChain)
    (hrenderer : v.renderer = { w.renderer with isDirty := v.renderer.isDirty, shaders := v.renderer.shaders })
    (hlayout : Looks v.videoLayout w.videoLayout) : v.picture = w.picture := by
  obtain ⟨hvertices, hwidth, hheight⟩ := hlayout
  have hframebuffers : v.renderer.framebuffers = w.renderer.framebuffers := by rw [hrenderer]
  have htexture : v.renderer.texture = w.renderer.texture := by rw [hrenderer]
  have hsize : v.renderer.lastFrameSize = w.renderer.lastFrameSize := by rw [hrenderer]
  have hpass : v.drawPass = w.drawPass := by
    funext i shader
    simp only [Video.drawPass, hprograms, hframebuffers, hvertices, hwidth, hheight]
  simp [Video.picture, hv, hw, hprograms, hpass, htexture, hsize, hwidth, hheight]

theorem picture_eq_iff {v w : Video Unit K D} (hv : v.ambientMode = false) (hw : w.ambientMode = false)
    (hrenderer : v.renderer = { w.renderer with isDirty := v.renderer.isDirty, shaders := v.renderer.shaders })
    (hlayout : Looks v.videoLayout w.videoLayout) : v.picture = w.picture ↔ v.shadersChain = w.shadersChain :=
  ⟨programs_of_picture_eq, fun h => picture_congr hv hw h hrenderer hlayout⟩

theorem looks_self (l : VideoLayout K) : Looks l l := ⟨rfl, rfl, rfl⟩

/-- A new layout is seen exactly if it looks otherwise. -/
theorem picture_layout_iff {v : Video Unit K D} (hambient : v.ambientMode = false)
    (hprograms : v.shadersChain ≠ []) (l : VideoLayout K) :
    Video.picture { v with videoLayout := l } = v.picture ↔ Looks l v.videoLayout := by
  refine ⟨fun h => ?_, fun h => picture_congr hambient hambient rfl rfl h⟩
  have hvertices := (Video.vertices_picture hprograms).2 (rfl : v.videoLayout.foregroundVertices = _)
  rw [← h] at hvertices
  have hscreen := congrArg Picture.screenSize h
  exact ⟨(Video.vertices_picture (v := { v with videoLayout := l }) hprograms).1 hvertices,
    congrArg Prod.fst hscreen, congrArg Prod.snd hscreen⟩

theorem loaded_loadProgram (v : Video Unit K D) : Loaded (v.loadProgram ()) (getShader v.requestedShaderConfig) :=
  ⟨rfl, rfl, Renderer.shaders_setShaders ..⟩

/-- The program that is loaded is seen exactly if it is not the one that was. -/
theorem picture_loadProgram_iff {v : Video Unit K D} {shaders : Chain} (hambient : v.ambientMode = false)
    (hv : Loaded v shaders) :
    (v.loadProgram ()).picture = v.picture ↔ getShader v.requestedShaderConfig = shaders := by
  obtain ⟨config, -, rfl⟩ := Option.map_eq_some_iff.1 hv.config
  have hprograms : Video.programs () (getShader v.requestedShaderConfig) = Video.programs () (getShader config) ↔ _ :=
    Video.programs_eq_iff
  rw [← hprograms, ← hv.shadersChain]
  exact picture_eq_iff hambient hambient (Renderer.setShaders_eq v.renderer _) (looks_self _)

/-- With the same renderer the two look alike. -/
theorem Related.picture_eq (hs : Related s) (r : Renderer Unit D) :
    Video.picture { s.skipping with renderer := r, isDirty := false } =
      Video.picture { s.plain with renderer := r, isDirty := false } := by
  obtain ⟨shaders, hplain, hskipping⟩ := hs.loaded
  exact picture_congr hs.skipping.2 hs.plain.2 (hskipping.shadersChain.trans hplain.shadersChain.symm) rfl
    (hs.videoLayout ▸ looks_self _)

/-- A layout or a shader that is not seen leaves them related. -/
theorem Related.set (hs : Related s) {l l' : VideoLayout K} {requested requested' : Config} (hlayout : l' = l)
    (hrequested : requested' = requested)
    (hcurrent : (s.plain.loadedShaderType.any fun loaded => loaded.same requested) = true)
    (hshown : s.skippingShown = some
      (Video.picture { s.plain with videoLayout := l, requestedShaderConfig := requested, isDirty := false })) :
    Related {
      plain := { s.plain with videoLayout := l, requestedShaderConfig := requested, isDirty := false }
      skipping := { s.skipping with videoLayout := l', requestedShaderConfig := requested' }
      plainShown := some
        (Video.picture { s.plain with videoLayout := l, requestedShaderConfig := requested, isDirty := false })
      skippingShown := s.skippingShown } := by
  obtain ⟨shaders, hplain, hskipping⟩ := hs.loaded
  exact ⟨hs.plain, hs.skipping, hs.clean, hrequested, hlayout,
    ⟨shaders, ⟨hplain.1, hplain.2, hplain.3⟩, ⟨hskipping.1, hskipping.2, hskipping.3⟩⟩, hcurrent, hs.renderer,
    hshown, .inr rfl⟩

theorem related_init (renderingOptions : RenderingOptions) (shaderConfig : Config) (videoLayout : VideoLayout K) :
    Related (init renderingOptions shaderConfig videoLayout : State K D) where
  plain := ⟨rfl, rfl⟩
  skipping := ⟨rfl, rfl⟩
  clean := rfl
  requested := rfl
  videoLayout := rfl
  loaded := ⟨getShader shaderConfig, loaded_loadProgram _, loaded_loadProgram _⟩
  current := Config.same_self shaderConfig
  renderer := alike_self fun hkind hclean => by
    have hdirty : ∀ r : Renderer Unit D, (r.setShaders (getShader shaderConfig)).kind = .imageES3 →
        (r.setShaders (getShader shaderConfig)).isDirty = true := by
      intro r hES3
      rw [Renderer.setShaders_eq] at hES3
      have hr : r.kind = .imageES3 := hES3
      simp [Renderer.setShaders, hr]
    cases (hdirty _ hkind).symm.trans hclean
  shown := rfl
  last := .inl rfl

/-! ### Steps -/

variable [NatCast K] [Neg K] [Add K] [Sub K] [Mul K] [Div K] [LT K] [DecidableLT K]
variable {m : MathFunctions K} {a : Action K D} {t : State K D} {es : List Empty}

/-- On a call without data the plain one draws, and the other does not. -/
theorem step_still
    (hplain : (apply m a s.plain).skipDuplicateFrames = false ∧ (apply m a s.plain).ambientMode = false)
    (hskipping : (apply m a s.skipping).skipDuplicateFrames = true ∧ (apply m a s.skipping).isDirty = false) :
    step m s a = some ({
      plain := Video.updateProgram () { apply m a s.plain with isDirty := false }
      skipping := apply m a s.skipping
      plainShown := some (Video.updateProgram () { apply m a s.plain with isDirty := false }).picture
      skippingShown := s.skippingShown }, []) := by
  simp [step, Video.renderFrame_drawn (.inl hplain.1) hplain.2, Video.renderFrame_skipped hskipping.1 hskipping.2]

theorem layout_step (hs : Related s) {f : VideoLayout K → VideoLayout K} (ha : ∀ v, apply m a v = v.updateLayout f)
    (h : step m s a = some (t, es)) :
    (Law s a t es ↔ s.plainShown ≠ none ∧ Looks (f s.plain.videoLayout) s.plain.videoLayout) ∧
      (Law s a t es → Related t) := by
  obtain ⟨shaders, hplain, hskipping⟩ := hs.loaded
  have hprograms : s.plain.shadersChain ≠ [] := by
    rw [hplain.shadersChain]
    exact Video.programs_ne_nil shaders
  rw [step_still (by rw [ha]; exact hs.plain) (by rw [ha]; exact ⟨hs.skipping.1, hs.clean⟩), ha, ha] at h
  simp only [Video.updateLayout] at h
  rw [Video.updateProgram_of_same
    (v := { s.plain with videoLayout := f s.plain.videoLayout, isDirty := false }) hs.current] at h
  obtain ⟨rfl, -⟩ := Prod.mk.inj (Option.some.inj h)
  constructor
  · rw [Law, hs.shown_iff, ← picture_layout_iff hs.plain.2 hprograms]
    exact Iff.rfl
  · exact fun hlaw => hs.set (congrArg f hs.videoLayout) hs.requested hs.current hlaw

theorem repeated_step (hs : Related s) (h : step m s (.onNewFrame none) = some (t, es)) :
    (Law s (.onNewFrame none) t es ↔ s.plainShown ≠ none) ∧ (Law s (.onNewFrame none) t es → Related t) := by
  rw [step_still (a := .onNewFrame none) hs.plain ⟨hs.skipping.1, hs.clean⟩] at h
  simp only [apply, Video.onNewFrame] at h
  rw [Video.updateProgram_of_same (v := { s.plain with isDirty := false }) hs.current] at h
  obtain ⟨rfl, -⟩ := Prod.mk.inj (Option.some.inj h)
  constructor
  · rw [Law, hs.shown_iff]
    exact and_iff_left rfl
  · exact fun hlaw => hs.set hs.videoLayout hs.requested hs.current hlaw

theorem shader_step (hs : Related s) {shaderConfig : Config}
    (h : step m s (.updateShaderType shaderConfig) = some (t, es)) :
    (Law s (.updateShaderType shaderConfig) t es ↔
        s.plainShown ≠ none ∧ Draws s.plain.loadedShaderType shaderConfig s.plain.loadedShaderType) ∧
      (Law s (.updateShaderType shaderConfig) t es → Related t) := by
  obtain ⟨shaders, hplain, hskipping⟩ := hs.loaded
  rw [step_still (a := .updateShaderType shaderConfig) hs.plain ⟨hs.skipping.1, hs.clean⟩] at h
  simp only [apply, Video.updateShaderType] at h
  rcases hsame : s.plain.loadedShaderType.any fun loaded => loaded.same shaderConfig with _ | _
  · rw [Video.updateProgram_of_not_same
      (v := { s.plain with requestedShaderConfig := shaderConfig, isDirty := false }) hsame] at h
    obtain ⟨rfl, -⟩ := Prod.mk.inj (Option.some.inj h)
    have hiff := (picture_loadProgram_iff
      (v := { s.plain with requestedShaderConfig := shaderConfig, isDirty := false }) hs.plain.2
      ⟨hplain.config, hplain.shadersChain, hplain.renderer⟩)
    constructor
    · rw [Law, hs.shown_iff, Draws, hsame, hplain.config]
      refine and_congr_right fun _ => hiff.trans ?_
      simp [eq_comm]
    · intro hlaw
      have hshaders : getShader shaderConfig = shaders := hiff.1 ((hs.shown_iff _).1 hlaw).2
      refine ⟨hs.plain, hs.skipping, hs.clean, rfl, hs.videoLayout, ⟨shaders, ?_, ?_⟩, ?_, ?_, hlaw, .inr rfl⟩
      · rw [← hshaders]
        exact loaded_loadProgram _
      · exact ⟨hskipping.1, hskipping.2, hskipping.3⟩
      · exact Config.same_self shaderConfig
      · have hset := hs.renderer.setShaders_left
        rw [hplain.renderer, ← hshaders] at hset
        exact hset
  · rw [Video.updateProgram_of_same
      (v := { s.plain with requestedShaderConfig := shaderConfig, isDirty := false }) hsame] at h
    obtain ⟨rfl, -⟩ := Prod.mk.inj (Option.some.inj h)
    constructor
    · rw [Law, hs.shown_iff, Draws, hsame]
      exact and_congr_right fun _ => iff_of_true rfl (.inl rfl)
    · exact fun hlaw => hs.set hs.videoLayout rfl hsame hlaw

/-- On a frame with data both draw. -/
theorem step_frame (hs : Related s) (frame : Frame D) :
    step m s (.onNewFrame (some frame)) = some ({
      plain := { s.plain with renderer := s.plain.renderer.onNewFrame () frame, isDirty := false }
      skipping := Video.updateProgram ()
        { s.skipping with renderer := s.plain.renderer.onNewFrame () frame, isDirty := false }
      plainShown := some
        (Video.picture { s.plain with renderer := s.plain.renderer.onNewFrame () frame, isDirty := false })
      skippingShown := some (Video.updateProgram ()
        { s.skipping with renderer := s.plain.renderer.onNewFrame () frame, isDirty := false }).picture }, []) := by
  have hplain : Video.renderFrame () { s.plain with
      renderer := s.plain.renderer.onNewFrame () frame, isDirty := true } = _ :=
    Video.renderFrame_drawn (.inl hs.plain.1) hs.plain.2
  have hskipping : Video.renderFrame () { s.skipping with
      renderer := s.plain.renderer.onNewFrame () frame, isDirty := true } = _ :=
    Video.renderFrame_drawn (.inr rfl) hs.skipping.2
  have hcurrent : Video.updateProgram () { s.plain with
      renderer := s.plain.renderer.onNewFrame () frame, isDirty := false } = _ :=
    Video.updateProgram_of_same hs.current
  rw [hcurrent] at hplain
  simp only [step, apply, Video.onNewFrame, ← hs.renderer.onNewFrame frame, hplain, hskipping, Option.some_or]

theorem frame_step (hs : Related s) {frame : Frame D} (h : step m s (.onNewFrame (some frame)) = some (t, es)) :
    (Law s (.onNewFrame (some frame)) t es ↔
        Draws s.skipping.loadedShaderType s.skipping.requestedShaderConfig s.plain.loadedShaderType) ∧
      (Law s (.onNewFrame (some frame)) t es → Related t) := by
  obtain ⟨shaders, hplain, hskipping⟩ := hs.loaded
  have hbuilt : (s.plain.renderer.onNewFrame () frame).kind = .imageES3 →
      Built (s.plain.renderer.onNewFrame () frame) := by
    intro hkind
    rw [Renderer.onNewFrame_kind] at hkind
    exact built_onNewFrame (fun hES3 hclean => hs.renderer.built hES3 (.inl hclean)) frame hkind
  have halike : Alike (s.plain.renderer.onNewFrame () frame) (s.plain.renderer.onNewFrame () frame) :=
    alike_self fun hkind _ => hbuilt hkind
  have hshaders : (s.plain.renderer.onNewFrame () frame).shaders = shaders :=
    (Renderer.onNewFrame_shaders ..).trans hplain.renderer
  rw [step_frame hs] at h
  rcases hsame : s.skipping.loadedShaderType.any fun loaded => loaded.same s.skipping.requestedShaderConfig with _ | _
  · rw [Video.updateProgram_of_not_same (v := { s.skipping with
      renderer := s.plain.renderer.onNewFrame () frame, isDirty := false }) hsame] at h
    obtain ⟨rfl, -⟩ := Prod.mk.inj (Option.some.inj h)
    have hiff := picture_loadProgram_iff (v := { s.skipping with
      renderer := s.plain.renderer.onNewFrame () frame, isDirty := false }) hs.skipping.2
        ⟨hskipping.config, hskipping.shadersChain, hshaders⟩
    rw [hs.picture_eq] at hiff
    constructor
    · rw [Law, Option.some_inj, hiff, Draws, hsame, hplain.config]
      simp [eq_comm]
    · intro hlaw
      have hrequested : getShader s.skipping.requestedShaderConfig = shaders := hiff.1 (Option.some.inj hlaw)
      refine ⟨hs.plain, hs.skipping, rfl, hs.requested, hs.videoLayout, ⟨shaders, ?_, ?_⟩, hs.current, ?_, hlaw,
        .inr rfl⟩
      · exact ⟨hplain.1, hplain.2, hshaders⟩
      · rw [← hrequested]
        exact loaded_loadProgram _
      · have hset := halike.setShaders_left.symm
        rw [hshaders, ← hrequested] at hset
        exact hset
  · rw [Video.updateProgram_of_same (v := { s.skipping with
      renderer := s.plain.renderer.onNewFrame () frame, isDirty := false }) hsame] at h
    obtain ⟨rfl, -⟩ := Prod.mk.inj (Option.some.inj h)
    constructor
    · exact iff_of_true (congrArg some (hs.picture_eq _)) (.inl hsame)
    · intro hlaw
      exact ⟨hs.plain, hs.skipping, rfl, hs.requested, hs.videoLayout,
        ⟨shaders, ⟨hplain.1, hplain.2, hshaders⟩, ⟨hskipping.1, hskipping.2, hshaders⟩⟩, hs.current, halike, hlaw,
        .inr rfl⟩

theorem action_step (hs : Related s) (h : step m s a = some (t, es)) :
    (Law s a t es ↔ Condition m s a t es) ∧ (Law s a t es → Related t) := by
  cases a with
  | onNewFrame data =>
    cases data with
    | none => exact repeated_step hs h
    | some frame => exact frame_step hs h
  | updateScreenSize width height => exact layout_step hs (fun _ => rfl) h
  | updateViewportSize viewportRect => exact layout_step hs (fun _ => rfl) h
  | updateAspectRatio aspectRatio => exact layout_step hs (fun _ => rfl) h
  | updateRotation rotation => exact layout_step hs (fun _ => rfl) h
  | updateShaderType shaderConfig => exact shader_step hs h

/-- After every call of a run, what is on screen is what it would be without `skipDuplicateFrames`, exactly if
the calls meet the condition. -/
theorem skipping_iff (m : MathFunctions K) (renderingOptions : RenderingOptions) (shaderConfig : Config)
    (videoLayout : VideoLayout K) (as : List (Action K D)) :
    Along (step m) Law (init renderingOptions shaderConfig videoLayout) as ↔
      Along (step m) (Condition m) (init renderingOptions shaderConfig videoLayout) as :=
  along_iff (I := Related) (G := Law) (C := Condition m) (fun hs h => (action_step hs h).1)
    (fun hs h ha => (action_step hs h).2 ((action_step hs h).1.2 ha)) (related_init ..) as

end

/-- At rotation 0. -/
def upright : MathFunctions ℚ where
  cos := fun _ => 1
  sin := fun _ => 0
  fabs := abs

/-- The surface grows after the first frame, and the picture stays as it was. -/
theorem resized_unseen : ¬ Along (step upright) Law
    (init ⟨false, 1, 1, 3⟩ ⟨.default, [], List.nodup_nil⟩ (VideoLayout.make upright false 0 ⟨0, 0, 1, 1⟩) :
      State ℚ Unit)
    [.onNewFrame (some ⟨1, 1, ()⟩), .updateScreenSize 100 100] := by
  rintro ⟨-, hlaw, -⟩
  exact absurd (congrArg (Option.map Picture.screenSize) hlaw) (by decide)

end SweetHome.DuplicateFrames
