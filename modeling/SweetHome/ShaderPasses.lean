import SweetHome.ImageRenderers

/-!
# The passes of a frame

`Video` compiles the requested shaders inside `renderFrame`, while the renderers rebuild the
framebuffers of their passes on a later frame with data. A frame is drawn through the right framebuffers
exactly if the requested shader has as many passes as the one that was loaded when the last frame with
data came (`passesMatched_iff`).
-/

namespace SweetHome.ShaderPasses
open Step ShaderManager ES3Utils ImageRenderers

/-! ### The renderers -/

/-- The renderer of a core that draws with GL itself, into `framebuffer`. -/
structure FramebufferRenderer where
  lastFrameSize : Nat × Nat := (0, 0)
  depth : Bool
  width : Nat
  height : Nat
  isDirty : Bool := false
  framebuffer : Framebuffer := {}
  shaders : Chain
  framebuffers : List Framebuffer := []

namespace FramebufferRenderer

/-- The old framebuffers of the passes are forgotten, not deleted. -/
def initializeBuffers (gl : Gl) (r : FramebufferRenderer) : FramebufferRenderer × Gl :=
  let (framebuffers, gl) := buildShaderPasses r.width r.height r.shaders gl
  let gl := deleteFramebuffer r.framebuffer gl
  let (framebuffer, gl) := createFramebuffer r.width r.height r.depth gl
  ({ r with framebuffers := framebuffers, framebuffer := framebuffer }, gl)

def make (width height : Nat) (depth : Bool) (shaders : Chain) (gl : Gl) : FramebufferRenderer × Gl :=
  initializeBuffers gl { depth := depth, width := width, height := height, shaders := shaders }

def onNewFrame (width height : Nat) (gl : Gl) (r : FramebufferRenderer) : FramebufferRenderer × Gl :=
  let r := { r with lastFrameSize := (width, height) }
  if r.isDirty then
    let (r, gl) := r.initializeBuffers gl
    ({ r with isDirty := false }, gl)
  else (r, gl)

def updateRenderedResolution (width height : Nat) (r : FramebufferRenderer) : FramebufferRenderer :=
  if r.width ≠ width ∨ r.height ≠ height then
    { r with width := width, height := height, isDirty := true }
  else r

def setShaders (shaders : Chain) (r : FramebufferRenderer) : FramebufferRenderer :=
  if shaders ≠ r.shaders then { r with shaders := shaders, isDirty := true } else r

def getPassData (layer : Nat) (r : FramebufferRenderer) : PassData := passData r.framebuffers layer

end FramebufferRenderer

/-- The data of a frame: pixels in memory, or `RETRO_HW_FRAME_BUFFER_VALID`. -/
inductive Data (format : PixelFormat) where
  | pixels (f : Buffer format)
  | hardware (width height : Nat)

def Data.size {format : PixelFormat} : Data format → Nat × Nat
  | .pixels f => (f.width, f.height)
  | .hardware width height => (width, height)

inductive Renderer where
  | image (r : ImageRendererES3)
  | framebuffer (r : FramebufferRenderer)

namespace Renderer

/-- An image renderer reads its pixels where the data points, and crashes on the marker of frames
that the hardware has drawn. -/
def onNewFrame (undefined : Nat → Nat → Rgb) {format : PixelFormat} (data : Data format) (gl : Gl) :
    Renderer → Option (Renderer × Gl)
  | .image r =>
    match data with
    | .pixels f => some (.image (r.onNewFrame undefined f gl).1, (r.onNewFrame undefined f gl).2)
    | .hardware .. => none
  | .framebuffer r =>
    let (r, gl) := r.onNewFrame data.size.1 data.size.2 gl
    some (.framebuffer r, gl)

def updateRenderedResolution (width height : Nat) : Renderer → Renderer
  | .image r => .image r
  | .framebuffer r => .framebuffer (r.updateRenderedResolution width height)

def setShaders (shaders : Chain) : Renderer → Renderer
  | .image r => .image (r.setShaders shaders)
  | .framebuffer r => .framebuffer (r.setShaders shaders)

def getPassData (layer : Nat) : Renderer → PassData
  | .image r => r.getPassData layer
  | .framebuffer r => r.getPassData layer

def shaders : Renderer → Chain
  | .image r => r.shaders
  | .framebuffer r => r.shaders

def framebuffers : Renderer → List Framebuffer
  | .image r => r.framebuffers
  | .framebuffer r => r.framebuffers

def isDirty : Renderer → Bool
  | .image r => r.isDirty
  | .framebuffer r => r.isDirty

end Renderer

/-! ### `Video` -/

structure ShaderChainEntry where
  gProgram : Text × Text
  gPreviousPassTextureHandle : Bool

structure Draw where
  gProgram : Text × Text
  framebuffer : Nat
  /-- The size of the viewport; `none` is that of the screen. -/
  width : Option Nat
  height : Option Nat
  foregroundVertices : Bool
  previousPass : Option Nat

structure Video where
  requestedShaderConfig : Config
  loadedShaderType : Option Config := none
  isDirty : Bool := false
  skipDuplicateFrames : Bool
  shadersChain : List ShaderChainEntry := []
  renderer : Renderer

namespace Video

/-- The programs are assumed to compile and link: else an exception ends the process. -/
def updateProgram (v : Video) : Video :=
  if v.loadedShaderType.any fun loaded => loaded.same v.requestedShaderConfig then v else
    let shaders := getShader v.requestedShaderConfig
    { v with
      loadedShaderType := some v.requestedShaderConfig
      shadersChain := shaders.passes.map fun item =>
        { gProgram := (item.vertex, item.fragment)
          gPreviousPassTextureHandle := item.fragment.source.declaresPreviousPass }
      renderer := v.renderer.setShaders shaders }

def drawPass (v : Video) (i : Nat) (shader : ShaderChainEntry) : Draw :=
  let passData := v.renderer.getPassData i
  let isLastPass := i == v.shadersChain.length - 1
  { gProgram := shader.gProgram
    framebuffer := passData.framebuffer.getD 0
    width := passData.width
    height := passData.height
    foregroundVertices := isLastPass
    previousPass := if shader.gPreviousPassTextureHandle then passData.texture else none }

def skips (v : Video) : Bool := v.skipDuplicateFrames && !v.isDirty

def renderFrame (v : Video) : Video × List Draw :=
  if v.skips then (v, []) else
    let v := { v with isDirty := false }.updateProgram
    (v, v.shadersChain.mapIdx v.drawPass)

def onNewFrame (undefined : Nat → Nat → Rgb) {format : PixelFormat} (data : Data format) (gl : Gl)
    (v : Video) : Option (Video × Gl) :=
  (v.renderer.onNewFrame undefined data gl).map fun (renderer, gl) =>
    ({ v with renderer := renderer, isDirty := true }, gl)

def updateRendererSize (width height : Nat) (v : Video) : Video :=
  { v with renderer := v.renderer.updateRenderedResolution width height }

def updateShaderType (shaderConfig : Config) (v : Video) : Video :=
  { v with requestedShaderConfig := shaderConfig }

structure RenderingOptions where
  hardwareAccelerated : Bool
  width : Nat
  height : Nat
  useDepth : Bool

/-- For OpenGL ES 3. The constructor gives an image renderer its shaders right after. -/
def initializeRenderer (renderingOptions : RenderingOptions) (shaders : Chain) (gl : Gl) :
    Renderer × Gl :=
  if renderingOptions.hardwareAccelerated then
    let (r, gl) :=
      FramebufferRenderer.make renderingOptions.width renderingOptions.height renderingOptions.useDepth
        shaders gl
    (.framebuffer r, gl)
  else (.image { currentTexture := newTexture, shaders := shaders }, gl)

def make (renderingOptions : RenderingOptions) (shaderConfig : Config) (skipDuplicateFrames : Bool)
    (gl : Gl) : Video × Gl :=
  let (renderer, gl) := initializeRenderer renderingOptions (getShader shaderConfig) gl
  ({ requestedShaderConfig := shaderConfig
     skipDuplicateFrames := skipDuplicateFrames
     renderer := renderer : Video }.updateProgram, gl)

end Video

/-! ### Runs -/

structure State where
  video : Video
  gl : Gl
  /-- The shader that was loaded when the last frame with data came: for the law and the condition. -/
  uploaded : Option Config := none

inductive Action (format : PixelFormat) where
  | updateShaderType (shaderConfig : Config)
  /-- `none` repeats the last frame. -/
  | onNewFrame (data : Option (Data format))
  | updateRendererSize (width height : Nat)
  | renderFrame

def init (renderingOptions : Video.RenderingOptions) (shaderConfig : Config)
    (skipDuplicateFrames : Bool) : State :=
  let (video, gl) :=
    Video.make renderingOptions shaderConfig skipDuplicateFrames { framebuffer_pos := Nat.one_pos }
  { video := video, gl := gl }

section
variable (undefined : Nat → Nat → Rgb) {format : PixelFormat}

def step : Step State (Action format) Draw
  | s, .updateShaderType shaderConfig =>
    some ({ s with video := s.video.updateShaderType shaderConfig }, [])
  | s, .onNewFrame none => some (s, [])
  | s, .onNewFrame (some data) =>
    (s.video.onNewFrame undefined data s.gl).map fun (video, gl) =>
      ({ video := video, gl := gl, uploaded := s.video.loadedShaderType }, [])
  | s, .updateRendererSize width height =>
    some ({ s with video := s.video.updateRendererSize width height }, [])
  | s, .renderFrame => some ({ s with video := s.video.renderFrame.1 }, s.video.renderFrame.2)

/-- The last pass draws to the screen, every other into a framebuffer of its own, and every pass but
the first reads what the pass before has written. -/
structure Matched (gl : Gl) (framebuffers : List Framebuffer) (draws : List Draw) : Prop where
  last : ∀ d, draws.getLast? = some d → d.framebuffer = 0
  intermediate : ∀ d ∈ draws.dropLast, ∃ f ∈ framebuffers, d.framebuffer = f.framebuffer
  own : (draws.map Draw.framebuffer).Nodup
  received : ∀ i d e, draws[i]? = some d → draws[i + 1]? = some e →
    ∃ texture, gl.attachment d.framebuffer = some texture ∧ e.previousPass = some texture

/-- After the first frame with data, every frame that is drawn is matched. -/
def PassesMatched (s : State) (a : Action format) (t : State) (draws : List Draw) : Prop :=
  match a with
  | .renderFrame => s.uploaded ≠ none → Matched t.gl t.video.renderer.framebuffers draws
  | _ => True

/-- A frame is only drawn while the requested shader has as many passes as the one that was loaded at
the last frame with data. -/
def PassesKept (s : State) (a : Action format) (_ : State) (_ : List Draw) : Prop :=
  match a with
  | .renderFrame => s.video.skips = false → ∀ config, s.uploaded = some config →
      (getShader s.video.requestedShaderConfig).passes.length = (getShader config).passes.length
  | _ => True

end

/-! ### What the renderers hold -/

/-- The framebuffers of the passes are objects of their own, other than the one that the core draws
into, and a clean renderer has them for the shaders that it was given. -/
structure Renderer.Inv (gl : Gl) (r : Renderer) : Prop where
  held : gl.Holds r.framebuffers
  clean : r.isDirty = false → r.framebuffers.length + 1 = r.shaders.passes.length
  main : ∀ renderer, r = .framebuffer renderer → renderer.framebuffer.framebuffer < gl.framebuffer

variable {gl gl' : Gl}

theorem initializeBuffers_spec {r : FramebufferRenderer} (h : r.framebuffer.framebuffer < gl.framebuffer) :
    (r.initializeBuffers gl).2.Holds (r.initializeBuffers gl).1.framebuffers ∧
    (r.initializeBuffers gl).1.framebuffers.length + 1 = r.shaders.passes.length ∧
    (r.initializeBuffers gl).1.framebuffer.framebuffer < (r.initializeBuffers gl).2.framebuffer := by
  obtain ⟨hheld, hlength, hnew⟩ := buildShaderPasses_spec r.width r.height r.shaders gl
  have hdelete := hheld.delete r.framebuffer fun f hf => by
    have := hnew f hf
    omega
  exact ⟨(hdelete.create r.width r.height r.depth).left, hlength, Nat.lt_succ_self _⟩

theorem Renderer.Inv.onNewFrame {undefined : Nat → Nat → Rgb} {format : PixelFormat}
    {data : Data format} {r r' : Renderer} (h : r.Inv gl)
    (hstep : r.onNewFrame undefined data gl = some (r', gl')) :
    r'.Inv gl' ∧ r'.shaders = r.shaders ∧ r'.framebuffers.length + 1 = r.shaders.passes.length := by
  rcases r with r | r
  · rcases data with f | ⟨width, height⟩
    · simp only [Renderer.onNewFrame, Option.some.injEq, Prod.mk.injEq] at hstep
      obtain ⟨rfl, rfl⟩ := hstep
      by_cases hdirty : r.lastFrameSize ≠ (f.width, f.height) ∨ r.isDirty
      · obtain ⟨hheld, hlength, -⟩ := buildShaderPasses_spec f.width f.height r.shaders
          (r.framebuffers.foldl (fun gl i => deleteFramebuffer i gl) gl)
        simp only [ImageRendererES3.onNewFrame, if_pos hdirty]
        refine ⟨⟨hheld, fun _ => hlength, ?_⟩, rfl, hlength⟩
        rintro renderer ⟨⟩
      · have hclean : r.isDirty = false := by
          simpa using (not_or.1 hdirty).2
        simp only [ImageRendererES3.onNewFrame, if_neg hdirty]
        refine ⟨⟨h.held, h.clean, ?_⟩, rfl, h.clean hclean⟩
        rintro renderer ⟨⟩
    · cases hstep
  · simp only [Renderer.onNewFrame, FramebufferRenderer.onNewFrame, Option.some.injEq,
      Prod.mk.injEq] at hstep
    obtain ⟨rfl, rfl⟩ := hstep
    by_cases hdirty : r.isDirty
    · obtain ⟨hheld, hlength, hmain⟩ :=
        initializeBuffers_spec (r := { r with lastFrameSize := data.size }) (h.main r rfl)
      simp only [if_pos hdirty]
      refine ⟨⟨hheld, fun _ => hlength, ?_⟩, rfl, hlength⟩
      rintro renderer ⟨⟩
      exact hmain
    · simp only [if_neg hdirty]
      have hclean : r.isDirty = false := by simpa using hdirty
      refine ⟨⟨h.held, h.clean, ?_⟩, rfl, h.clean hclean⟩
      rintro renderer ⟨⟩
      exact h.main r rfl

theorem Renderer.Inv.setShaders {r : Renderer} (h : r.Inv gl) (shaders : Chain) :
    (r.setShaders shaders).Inv gl ∧ (r.setShaders shaders).shaders = shaders ∧
      (r.setShaders shaders).framebuffers = r.framebuffers := by
  rcases r with r | r
  · exact ⟨⟨h.held, nofun, nofun⟩, rfl, rfl⟩
  · simp only [Renderer.setShaders, FramebufferRenderer.setShaders]
    split
    · refine ⟨⟨h.held, nofun, ?_⟩, rfl, rfl⟩
      rintro renderer ⟨⟩
      exact h.main r rfl
    · next heq => exact ⟨h, (not_not.1 heq).symm, rfl⟩

theorem Renderer.Inv.updateRenderedResolution {r : Renderer} (h : r.Inv gl) (width height : Nat) :
    (r.updateRenderedResolution width height).Inv gl ∧
      (r.updateRenderedResolution width height).shaders = r.shaders ∧
      (r.updateRenderedResolution width height).framebuffers = r.framebuffers := by
  rcases r with r | r
  · exact ⟨h, rfl, rfl⟩
  · simp only [Renderer.updateRenderedResolution, FramebufferRenderer.updateRenderedResolution]
    split
    · refine ⟨⟨h.held, nofun, ?_⟩, rfl, rfl⟩
      rintro renderer ⟨⟩
      exact h.main r rfl
    · exact ⟨h, rfl, rfl⟩

/-! ### The passes of one frame -/

theorem getPassData_eq (r : Renderer) (layer : Nat) :
    r.getPassData layer = passData r.framebuffers layer := by
  rcases r with r | r <;> rfl

def programs (config : Config) : List ShaderChainEntry :=
  (getShader config).passes.map fun item =>
    { gProgram := (item.vertex, item.fragment)
      gPreviousPassTextureHandle := item.fragment.source.declaresPreviousPass }

theorem length_programs (config : Config) :
    (programs config).length = (getShader config).passes.length := List.length_map ..

theorem previousPass_handle (config : Config) {i : Nat} (hi : i < (programs config).length) :
    (programs config)[i].gPreviousPassTextureHandle = true ↔ 0 < i := by
  rw [length_programs] at hi
  have hdeclares := declaresPreviousPass_iff config hi
  simpa [programs] using hdeclares

section
variable {v : Video} {config : Config}

theorem drawPass_framebuffer (v : Video) (i : Nat) (shader : ShaderChainEntry) :
    (v.drawPass i shader).framebuffer =
      (v.renderer.framebuffers[i]?.map Framebuffer.framebuffer).getD 0 := by
  simp only [Video.drawPass, getPassData_eq, passData]

theorem drawPass_inner {i : Nat} (hi : i < v.renderer.framebuffers.length) (shader : ShaderChainEntry) :
    (v.drawPass i shader).framebuffer = v.renderer.framebuffers[i].framebuffer := by
  rw [drawPass_framebuffer, List.getElem?_eq_getElem hi]
  rfl

theorem drawPass_outer {i : Nat} (hi : v.renderer.framebuffers.length ≤ i) (shader : ShaderChainEntry) :
    (v.drawPass i shader).framebuffer = 0 := by
  rw [drawPass_framebuffer, List.getElem?_eq_none hi]
  rfl

theorem drawPass_previousPass {i : Nat} (hi : i < v.renderer.framebuffers.length)
    (hn : i + 1 < (programs config).length) :
    (v.drawPass (i + 1) (programs config)[i + 1]).previousPass =
      some v.renderer.framebuffers[i].texture := by
  have hhandle := (previousPass_handle config hn).2 (Nat.succ_pos i)
  simp only [Video.drawPass, getPassData_eq, passData]
  rw [if_pos hhandle, if_pos (Nat.succ_pos i), Nat.add_sub_cancel, List.getElem?_eq_getElem hi]
  rfl

theorem map_framebuffer_draws (h : (programs config).length = v.renderer.framebuffers.length + 1) :
    ((programs config).mapIdx v.drawPass).map Draw.framebuffer =
      v.renderer.framebuffers.map Framebuffer.framebuffer ++ [0] := by
  apply List.ext_getElem
  · simp [h]
  · intro i hi _
    rw [List.length_map, List.length_mapIdx] at hi
    rw [List.getElem_map, List.getElem_mapIdx]
    by_cases hlast : i < v.renderer.framebuffers.length
    · rw [drawPass_inner hlast, List.getElem_append_left (by simpa using hlast), List.getElem_map]
    · rw [drawPass_outer (not_lt.1 hlast), List.getElem_append_right (by simpa using hlast)]
      simp

/-- One framebuffer too few, and the pass after them draws to the screen before the last; one too many, and the last
pass has a framebuffer. -/
theorem length_of_matched (hheld : gl.Holds v.renderer.framebuffers)
    (hmatched : Matched gl v.renderer.framebuffers ((programs config).mapIdx v.drawPass)) :
    v.renderer.framebuffers.length + 1 = (programs config).length := by
  have hpos : 0 < (programs config).length := by
    rw [length_programs]
    exact List.length_pos_of_ne_nil (getShader config).passes_ne
  by_contra hne
  rcases Nat.lt_or_gt_of_ne hne with hmore | hfewer
  · obtain ⟨f, hf, heq⟩ := hmatched.intermediate
      (v.drawPass v.renderer.framebuffers.length (programs config)[v.renderer.framebuffers.length]) (by
        rw [List.mem_iff_getElem]
        refine ⟨v.renderer.framebuffers.length, ?_, ?_⟩
        · rw [List.length_dropLast, List.length_mapIdx]; omega
        · rw [List.getElem_dropLast, List.getElem_mapIdx])
    have hf0 := hheld.pos f hf
    rw [drawPass_outer le_rfl] at heq
    omega
  · have hi : (programs config).length - 1 < v.renderer.framebuffers.length := by omega
    have hlast := hmatched.last
      (v.drawPass ((programs config).length - 1) (programs config)[(programs config).length - 1]) (by
        rw [List.getLast?_eq_getElem?, List.length_mapIdx, List.getElem?_mapIdx,
          List.getElem?_eq_getElem (by omega)]
        rfl)
    rw [drawPass_inner hi] at hlast
    have hf0 := hheld.pos _ (List.getElem_mem hi)
    omega

theorem matched_of_length (hheld : gl.Holds v.renderer.framebuffers)
    (h : v.renderer.framebuffers.length + 1 = (programs config).length) :
    Matched gl v.renderer.framebuffers ((programs config).mapIdx v.drawPass) := by
  have hmap := map_framebuffer_draws h.symm
  constructor
  · intro d hd
    have hlast := congrArg List.getLast? hmap
    rw [List.getLast?_map, hd, List.getLast?_concat, Option.map_some, Option.some.injEq] at hlast
    exact hlast
  · intro d hd
    have hmem := List.mem_map_of_mem (f := Draw.framebuffer) hd
    rw [List.map_dropLast, hmap, List.dropLast_concat] at hmem
    obtain ⟨f, hf, heq⟩ := List.mem_map.1 hmem
    exact ⟨f, hf, heq.symm⟩
  · rw [hmap, List.nodup_append]
    refine ⟨hheld.nodup, List.nodup_singleton 0, ?_⟩
    intro a ha b hb
    obtain ⟨f, hf, rfl⟩ := List.mem_map.1 ha
    have hf0 := hheld.pos f hf
    rw [List.mem_singleton.1 hb]
    omega
  · intro i d e hd he
    rw [List.getElem?_mapIdx, Option.map_eq_some_iff] at hd he
    obtain ⟨shader, hshader, rfl⟩ := hd
    obtain ⟨next, hnext, rfl⟩ := he
    obtain ⟨hn, rfl⟩ := List.getElem?_eq_some_iff.1 hnext
    have hi : i < v.renderer.framebuffers.length := by omega
    refine ⟨v.renderer.framebuffers[i].texture, ?_, drawPass_previousPass hi hn⟩
    rw [drawPass_inner hi]
    exact hheld.attached _ (List.getElem_mem hi)

/-- The renderer holds one framebuffer less than there are passes, and nothing else matches them. -/
theorem matched_iff (hheld : gl.Holds v.renderer.framebuffers) :
    Matched gl v.renderer.framebuffers ((programs config).mapIdx v.drawPass) ↔
      v.renderer.framebuffers.length + 1 = (getShader config).passes.length := by
  rw [← length_programs]
  exact ⟨length_of_matched hheld, matched_of_length hheld⟩

end

/-! ### Every run -/

/-- The programs and the renderer are those of the loaded shader, and the framebuffers those of the
shader that was loaded at the last frame with data. -/
structure Inv (s : State) : Prop where
  renderer : s.video.renderer.Inv s.gl
  loaded : ∃ config, s.video.loadedShaderType = some config ∧ s.video.shadersChain = programs config ∧
    s.video.renderer.shaders = getShader config
  uploaded : ∀ config, s.uploaded = some config →
    s.video.renderer.framebuffers.length + 1 = (getShader config).passes.length

theorem updateProgram_spec {v : Video} (h : v.renderer.Inv gl)
    (hloaded : v.loadedShaderType = none ∨ ∃ config, v.loadedShaderType = some config ∧
      v.shadersChain = programs config ∧ v.renderer.shaders = getShader config) :
    v.updateProgram.renderer.Inv gl ∧
    v.updateProgram.renderer.framebuffers = v.renderer.framebuffers ∧
    ∃ config, v.updateProgram.loadedShaderType = some config ∧
      v.updateProgram.shadersChain = programs config ∧
      v.updateProgram.renderer.shaders = getShader config ∧
      (getShader config).passes.length = (getShader v.requestedShaderConfig).passes.length := by
  unfold Video.updateProgram
  split
  · next hsame =>
    rcases hloaded with hnone | ⟨config, hconfig, hchain, hshaders⟩
    · rw [hnone] at hsame
      exact absurd hsame nofun
    · rw [hconfig, Option.any_some] at hsame
      exact ⟨h, rfl, config, hconfig, hchain, hshaders,
        passes_length_congr (Config.type_eq_of_same hsame)⟩
  · obtain ⟨hinv, hshaders, hframebuffers⟩ :=
      h.setShaders (getShader v.requestedShaderConfig)
    exact ⟨hinv, hframebuffers, v.requestedShaderConfig, rfl, rfl, hshaders, rfl⟩

theorem inv_initializeRenderer (renderingOptions : Video.RenderingOptions) (shaders : Chain) (gl : Gl) :
    (Video.initializeRenderer renderingOptions shaders gl).1.Inv
      (Video.initializeRenderer renderingOptions shaders gl).2 := by
  unfold Video.initializeRenderer
  split
  · obtain ⟨hheld, hlength, hmain⟩ := initializeBuffers_spec
      (r := { depth := renderingOptions.useDepth
              width := renderingOptions.width
              height := renderingOptions.height
              shaders := shaders })
      (show 0 < gl.framebuffer from gl.framebuffer_pos)
    refine ⟨hheld, fun _ => hlength, ?_⟩
    rintro renderer ⟨⟩
    exact hmain
  · exact ⟨holds_nil gl, nofun, nofun⟩

theorem inv_init (renderingOptions : Video.RenderingOptions) (shaderConfig : Config)
    (skipDuplicateFrames : Bool) :
    Inv (init renderingOptions shaderConfig skipDuplicateFrames) := by
  have hrenderer := inv_initializeRenderer renderingOptions (getShader shaderConfig)
    { framebuffer_pos := Nat.one_pos }
  obtain ⟨hinv, -, config, hconfig, hchain, hshaders, -⟩ := updateProgram_spec
    (v := { requestedShaderConfig := shaderConfig
            skipDuplicateFrames := skipDuplicateFrames
            renderer := _ }) hrenderer (.inl rfl)
  exact ⟨hinv, ⟨config, hconfig, hchain, hshaders⟩, nofun⟩

theorem renderFrame_spec {s : State} (h : Inv s) (hdraws : s.video.skips = false) :
    Inv { s with video := s.video.renderFrame.1 } ∧
    (Matched s.gl s.video.renderFrame.1.renderer.framebuffers s.video.renderFrame.2 ↔
      s.video.renderer.framebuffers.length + 1 =
        (getShader s.video.requestedShaderConfig).passes.length) := by
  obtain ⟨hinv, hframebuffers, config, hconfig, hchain, hshaders, hpasses⟩ := updateProgram_spec
    (v := { s.video with isDirty := false }) h.renderer (.inr h.loaded)
  simp only [Video.renderFrame, hdraws, Bool.false_eq_true, if_false]
  refine ⟨⟨hinv, ⟨config, hconfig, hchain, hshaders⟩, ?_⟩, ?_⟩
  · intro uploaded huploaded
    rw [hframebuffers]
    exact h.uploaded uploaded huploaded
  · rw [hchain, matched_iff hinv.held, hframebuffers, hpasses]

theorem inv_step {undefined : Nat → Nat → Rgb} {format : PixelFormat} {s t : State}
    {a : Action format} {draws : List Draw} (h : Inv s)
    (hstep : step undefined s a = some (t, draws)) : Inv t := by
  rcases a with shaderConfig | (_ | data) | ⟨width, height⟩ | _
  · simp only [step, Option.some.injEq, Prod.mk.injEq] at hstep
    obtain ⟨rfl, -⟩ := hstep
    exact ⟨h.renderer, h.loaded, h.uploaded⟩
  · simp only [step, Option.some.injEq, Prod.mk.injEq] at hstep
    obtain ⟨rfl, -⟩ := hstep
    exact h
  · simp only [step, Video.onNewFrame, Option.map_map, Option.map_eq_some_iff] at hstep
    obtain ⟨⟨renderer, gl⟩, hrenderer, heq⟩ := hstep
    obtain ⟨rfl, -⟩ := Prod.mk.inj heq
    obtain ⟨hinv, hshaders, hlength⟩ := h.renderer.onNewFrame hrenderer
    obtain ⟨config, hconfig, hchain, hloaded⟩ := h.loaded
    refine ⟨hinv, ⟨config, hconfig, hchain, hshaders.trans hloaded⟩, ?_⟩
    intro uploaded huploaded
    have heq : config = uploaded := by
      rw [hconfig] at huploaded
      exact Option.some.inj huploaded
    rw [← heq, ← hloaded]
    exact hlength
  · simp only [step, Option.some.injEq, Prod.mk.injEq] at hstep
    obtain ⟨rfl, -⟩ := hstep
    obtain ⟨hinv, hshaders, hframebuffers⟩ := h.renderer.updateRenderedResolution width height
    obtain ⟨config, hconfig, hchain, hloaded⟩ := h.loaded
    refine ⟨hinv, ⟨config, hconfig, hchain, hshaders.trans hloaded⟩, ?_⟩
    intro uploaded huploaded
    show (s.video.renderer.updateRenderedResolution width height).framebuffers.length + 1 = _
    rw [hframebuffers]
    exact h.uploaded uploaded huploaded
  · simp only [step, Option.some.injEq, Prod.mk.injEq] at hstep
    obtain ⟨rfl, -⟩ := hstep
    rcases hdraws : s.video.skips with _ | _
    · exact (renderFrame_spec h hdraws).1
    · simp only [Video.renderFrame, hdraws, if_true]
      exact h

theorem matched_nil (gl : Gl) (framebuffers : List Framebuffer) : Matched gl framebuffers [] := by
  constructor <;> simp

theorem step_iff {undefined : Nat → Nat → Rgb} {format : PixelFormat} {s t : State}
    {a : Action format} {draws : List Draw} (h : Inv s)
    (hstep : step undefined s a = some (t, draws)) :
    PassesMatched s a t draws ↔ PassesKept s a t draws := by
  rcases a with shaderConfig | data | ⟨width, height⟩ | _
  · exact Iff.rfl
  · exact Iff.rfl
  · exact Iff.rfl
  · simp only [step, Option.some.injEq, Prod.mk.injEq] at hstep
    obtain ⟨rfl, rfl⟩ := hstep
    simp only [PassesMatched, PassesKept]
    rcases hdraws : s.video.skips with _ | _
    · obtain ⟨-, hmatched⟩ := renderFrame_spec h hdraws
      rw [hmatched]
      rcases huploaded : s.uploaded with _ | config
      · simp
      · have hlength := h.uploaded config huploaded
        simp only [ne_eq, reduceCtorEq, not_false_eq_true, forall_const, Option.some.injEq,
          forall_eq']
        rw [hlength]
        exact eq_comm
    · simp only [Video.renderFrame, hdraws, if_true]
      exact iff_of_true (fun _ => matched_nil ..) nofun

/-- In a run of either renderer every frame after the first one with data is matched exactly if every
frame is drawn with as many passes as the shader had that was loaded at the last frame with data. -/
theorem passesMatched_iff (undefined : Nat → Nat → Rgb) (format : PixelFormat)
    (renderingOptions : Video.RenderingOptions) (shaderConfig : Config) (skipDuplicateFrames : Bool)
    (as : List (Action format)) :
    Along (step undefined) PassesMatched
        (init renderingOptions shaderConfig skipDuplicateFrames) as ↔
      Along (step undefined) PassesKept
        (init renderingOptions shaderConfig skipDuplicateFrames) as :=
  along_iff (I := Inv) step_iff (fun h hstep _ => inv_step h hstep)
    (inv_init renderingOptions shaderConfig skipDuplicateFrames) as

/-- With the shader of two passes requested after a frame, both passes of the next one draw to the
screen. -/
theorem two_passes_on_screen :
    ¬ ∀ (undefined : Nat → Nat → Rgb) (format : PixelFormat)
      (renderingOptions : Video.RenderingOptions) (shaderConfig : Config) (skipDuplicateFrames : Bool)
      (as : List (Action format)),
      Along (step undefined) PassesMatched
        (init renderingOptions shaderConfig skipDuplicateFrames) as := by
  intro h
  let f : Buffer .rgb565 := ⟨fun _ => 0, 1, 1, 2⟩
  obtain ⟨-, -, hmatched, -⟩ := h (fun _ _ => ⟨0, 0, 0⟩) .rgb565 ⟨false, 1, 1, false⟩
    ⟨.default, [], List.nodup_nil⟩ false
    [.onNewFrame (some (.pixels f)), .updateShaderType ⟨.upscaleCut2, [], List.nodup_nil⟩, .renderFrame]
  exact absurd (hmatched nofun).own (by decide)

end SweetHome.ShaderPasses
