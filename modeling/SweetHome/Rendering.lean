import SweetHome.ShaderManager
import SweetHome.Lib.Round
import Mathlib.Data.Rat.Floor

/-!
# `Video`

The layout, the renderers and the programs of `Video`, and the picture that `renderFrame` draws. GL objects have
no names here; each carries the context that it was created in. Coordinates are of any type with the operations
that the layout is computed with, so that nothing rests on how they round.
-/

namespace SweetHome.Rendering
open ShaderManager

/-! ### The layout -/

section
variable (K : Type)

structure Rect where
  x : K
  y : K
  width : K
  height : K

structure MathFunctions where
  cos : K → K
  sin : K → K
  fabs : K → K

structure VideoLayout where
  bottomLeftOrigin : Bool
  rotation : K
  aspectRatio : K
  viewportRect : Rect K
  screenWidth : Nat := 0
  screenHeight : Nat := 0
  foregroundVertices : List K := []

end

namespace VideoLayout
variable {K : Type} [NatCast K] [Neg K] [Add K] [Sub K] [Mul K] [Div K] [LT K] [DecidableLT K]
variable (m : MathFunctions K)

/-- The buffers of the background are left out: only the ambient mode draws them. -/
def updateForegroundVertices (l : VideoLayout K) : VideoLayout K :=
  let cosTheta := m.cos (-l.rotation)
  let sinTheta := m.sin (-l.rotation)
  let screenW := l.screenWidth * l.viewportRect.width
  let screenH := l.screenHeight * l.viewportRect.height
  let screenAspect := screenW / screenH
  let contentAspect := l.aspectRatio
  let scaleX :=
    if contentAspect > screenAspect then l.viewportRect.width
    else l.viewportRect.width * (contentAspect / screenAspect)
  let scaleY :=
    if contentAspect > screenAspect then l.viewportRect.height * (screenAspect / contentAspect)
    else l.viewportRect.height
  let viewportXOffset := l.viewportRect.x * (2 : Nat) - ((1 : Nat) - l.viewportRect.width)
  let viewportYOffset := l.viewportRect.y * (2 : Nat) - ((1 : Nat) - l.viewportRect.height)
  let factorX := scaleX / (scaleX * m.fabs cosTheta + scaleY * m.fabs sinTheta)
  let factorY := scaleY / (scaleX * m.fabs sinTheta + scaleY * m.fabs cosTheta)
  let rotatedQuad (u v : K) : List K :=
    let origX := u * scaleX
    let origY := v * scaleY
    let rawX := origX * cosTheta - origY * sinTheta
    let rawY := origX * sinTheta + origY * cosTheta
    [rawX * factorX + viewportXOffset, rawY * factorY - viewportYOffset]
  let left : K := -(1 : Nat)
  let right : K := (1 : Nat)
  let first : K := if l.bottomLeftOrigin then -(1 : Nat) else (1 : Nat)
  let second : K := if l.bottomLeftOrigin then (1 : Nat) else -(1 : Nat)
  { l with
    foregroundVertices := rotatedQuad left first ++ rotatedQuad left second ++ rotatedQuad right first ++
      rotatedQuad right first ++ rotatedQuad left second ++ rotatedQuad right second }

def make (bottomLeftOrigin : Bool) (rotation : K) (viewportRect : Rect K) : VideoLayout K :=
  updateForegroundVertices m
    { bottomLeftOrigin := bottomLeftOrigin
      rotation := rotation
      aspectRatio := (1 : Nat)
      viewportRect := viewportRect }

def updateAspectRatio (aspectRatio : K) (l : VideoLayout K) : VideoLayout K :=
  updateForegroundVertices m { l with aspectRatio := aspectRatio }

def updateScreenSize (width height : Nat) (l : VideoLayout K) : VideoLayout K :=
  updateForegroundVertices m { l with screenWidth := width, screenHeight := height }

def updateViewportSize (viewport : Rect K) (l : VideoLayout K) : VideoLayout K :=
  updateForegroundVertices m { l with viewportRect := viewport }

def updateRotation (rotation : K) (l : VideoLayout K) : VideoLayout K :=
  updateForegroundVertices m { l with rotation := rotation }

end VideoLayout

/-! ### The renderers -/

section
variable (C D : Type)

/-- A frame with data: pixels, or what the core has drawn by itself. -/
structure Frame where
  width : Nat
  height : Nat
  data : D

/-- The texture of a renderer, of which the framebuffer of a core that draws by itself is the other end. -/
structure Texture where
  context : C
  linear : Bool := false
  content : Option D := none

/-- The framebuffer of a pass, with its texture. -/
structure Framebuffer where
  context : C
  width : Nat
  height : Nat
  linear : Bool

/-- `ImageRendererES2`, `ImageRendererES3` and `FramebufferRenderer`. -/
inductive Kind where
  | imageES2
  | imageES3
  | framebuffer
deriving DecidableEq, Repr

structure Renderer where
  kind : Kind
  lastFrameSize : Nat × Nat := (0, 0)
  /-- The size of the framebuffer that a core draws into. -/
  size : Nat × Nat := (0, 0)
  /-- Of these the renderer for ES 2 keeps `linearTexture` only. -/
  shaders : Chain
  isDirty : Bool := true
  framebuffers : List (Framebuffer C) := []
  texture : Texture C D

end

section
variable {C D : Type} (context : C)

def buildShaderPasses (width height : Nat) (shaders : Chain) : List (Framebuffer C) :=
  shaders.passes.dropLast.map fun pass =>
    { context := context
      width := (lround (width * pass.scale)).toNat
      height := (lround (height * pass.scale)).toNat
      linear := pass.linear }

namespace Renderer

/-- `FramebufferRenderer::initializeBuffers` -/
def initializeBuffers (r : Renderer C D) : Renderer C D :=
  { r with
    framebuffers := buildShaderPasses context r.size.1 r.size.2 r.shaders
    texture := { context := context, linear := r.shaders.linearTexture }
    isDirty := false }

/-- `ImageRendererES3::initializeTextures` -/
def initializeTextures (width height : Nat) (r : Renderer C D) : Renderer C D :=
  { r with
    framebuffers := buildShaderPasses context width height r.shaders
    texture := { r.texture with linear := r.shaders.linearTexture }
    isDirty := false }

/-- What is uploaded fills the texture. A core has drawn into its framebuffer before it tells so. -/
def onNewFrame (frame : Frame D) (r : Renderer C D) : Renderer C D :=
  match r.kind with
  | .imageES2 =>
    { r with
      texture := { r.texture with linear := r.shaders.linearTexture, content := some frame.data }
      lastFrameSize := (frame.width, frame.height) }
  | .imageES3 =>
    let r :=
      if r.lastFrameSize ≠ (frame.width, frame.height) ∨ r.isDirty = true then
        r.initializeTextures context frame.width frame.height
      else r
    { r with
      texture := { r.texture with content := some frame.data }
      lastFrameSize := (frame.width, frame.height) }
  | .framebuffer =>
    let r :=
      { r with
        texture := { r.texture with content := some frame.data }
        lastFrameSize := (frame.width, frame.height) }
    if r.isDirty then r.initializeBuffers context else r

def updateRenderedResolution (width height : Nat) (r : Renderer C D) : Renderer C D :=
  match r.kind with
  | .framebuffer => if r.size ≠ (width, height) then { r with size := (width, height), isDirty := true } else r
  | .imageES2 | .imageES3 => r

def setShaders (shaders : Chain) (r : Renderer C D) : Renderer C D :=
  match r.kind with
  | .imageES2 => { r with shaders := shaders }
  | .imageES3 => { r with shaders := shaders, isDirty := true }
  | .framebuffer => if shaders ≠ r.shaders then { r with shaders := shaders, isDirty := true } else r

def rendersInVideoCallback (r : Renderer C D) : Bool := r.kind == .framebuffer

variable (r : Renderer C D)

@[simp] theorem onNewFrame_kind (frame : Frame D) : (r.onNewFrame context frame).kind = r.kind := by
  unfold onNewFrame
  split
  · rfl
  · dsimp only
    split <;> rfl
  · dsimp only
    split <;> rfl

@[simp] theorem onNewFrame_shaders (frame : Frame D) : (r.onNewFrame context frame).shaders = r.shaders := by
  unfold onNewFrame
  split
  · rfl
  · dsimp only
    split <;> rfl
  · dsimp only
    split <;> rfl

@[simp] theorem shaders_setShaders (shaders : Chain) : (r.setShaders shaders).shaders = shaders := by
  unfold setShaders
  split
  · rfl
  · rfl
  · split
    · rfl
    · next heq => exact (not_not.1 heq).symm

theorem setShaders_eq (shaders : Chain) :
    r.setShaders shaders =
      { r with isDirty := (r.setShaders shaders).isDirty, shaders := (r.setShaders shaders).shaders } := by
  obtain ⟨kind, lastFrameSize, size, old, isDirty, framebuffers, texture⟩ := r
  cases kind with
  | imageES2 => rfl
  | imageES3 => rfl
  | framebuffer =>
    by_cases h : shaders = old
    · subst h
      simp [setShaders]
    · simp [setShaders, h]

/-- Shaders that a renderer has already make one of ES 3 rebuild what it has. -/
theorem setShaders_shaders : r.setShaders r.shaders = { r with isDirty := r.isDirty || r.kind == .imageES3 } := by
  obtain ⟨kind, lastFrameSize, size, shaders, isDirty, framebuffers, texture⟩ := r
  cases kind <;> cases isDirty <;> simp [setShaders]

end Renderer
end

/-! ### `Video` -/

structure RenderingOptions where
  hardwareAccelerated : Bool
  width : Nat
  height : Nat
  openglESVersion : Nat

section
variable (C K D : Type)

structure ShaderChainEntry where
  context : C
  vertex : Text
  fragment : Text

/-- The programs of the background are created together, and its framebuffers are. -/
structure VideoBackground where
  programs : Option C := none
  blurFramebuffers : Option C := none

structure Video where
  requestedShaderConfig : Config
  loadedShaderType : Option Config := none
  isDirty : Bool := false
  skipDuplicateFrames : Bool
  shadersChain : List (ShaderChainEntry C) := []
  ambientMode : Bool
  videoBackground : VideoBackground C := {}
  videoLayout : VideoLayout K
  renderer : Renderer C D

/-- The draw call of a pass. -/
structure Pass where
  program : ShaderChainEntry C
  /-- `none` is the screen. -/
  framebuffer : Option (Framebuffer C)
  viewport : Nat × Nat
  /-- The foreground vertices, or `none` for those that fill a framebuffer. -/
  vertices : Option (List K)
  previousPass : Option (Framebuffer C)

/-- All that a frame is drawn from. -/
structure Picture where
  background : Option (VideoBackground C)
  passes : List (Pass C K)
  texture : Texture C D
  textureSize : Nat × Nat
  screenSize : Nat × Nat

end

namespace VideoBackground

def renderBackground {C : Type} (context : C) (b : VideoBackground C) : VideoBackground C where
  programs := some (b.programs.getD context)
  blurFramebuffers := some (b.blurFramebuffers.getD context)

end VideoBackground

namespace Video
variable {C K D : Type} (context : C)

/-- The programs of a chain. They are assumed to compile and link. -/
def programs (shaders : Chain) : List (ShaderChainEntry C) :=
  shaders.passes.map fun item => { context := context, vertex := item.vertex, fragment := item.fragment }

/-- The rest of `updateProgram`, when the requested shader is not loaded. -/
def loadProgram (v : Video C K D) : Video C K D :=
  let shaders := getShader v.requestedShaderConfig
  { v with
    loadedShaderType := some v.requestedShaderConfig
    shadersChain := programs context shaders
    renderer := v.renderer.setShaders shaders }

def updateProgram (v : Video C K D) : Video C K D :=
  if v.loadedShaderType.any fun loaded => loaded.same v.requestedShaderConfig then v else v.loadProgram context

def drawPass (v : Video C K D) (i : Nat) (shader : ShaderChainEntry C) : Pass C K :=
  let framebuffer := v.renderer.framebuffers[i]?
  let screen := (v.videoLayout.screenWidth, v.videoLayout.screenHeight)
  let isLastPass := i == v.shadersChain.length - 1
  { program := shader
    framebuffer := framebuffer
    viewport := (framebuffer.map fun f => (f.width, f.height)).getD screen
    vertices := if isLastPass then some v.videoLayout.foregroundVertices else none
    previousPass :=
      if shader.fragment.source.declaresPreviousPass && 0 < i then v.renderer.framebuffers[i - 1]? else none }

def picture (v : Video C K D) : Picture C K D where
  background := if v.ambientMode then some v.videoBackground else none
  passes := v.shadersChain.mapIdx v.drawPass
  texture := v.renderer.texture
  textureSize := v.renderer.lastFrameSize
  screenSize := (v.videoLayout.screenWidth, v.videoLayout.screenHeight)

def skips (v : Video C K D) : Bool := v.skipDuplicateFrames && !v.isDirty

/-- `renderFrame` up to the passes. -/
def prepare (v : Video C K D) : Video C K D :=
  let v := { v with isDirty := false }
  let v := if v.ambientMode then { v with videoBackground := v.videoBackground.renderBackground context } else v
  v.updateProgram context

/-- What is drawn, if anything is. -/
def renderFrame (v : Video C K D) : Video C K D × Option (Picture C K D) :=
  if v.skips then (v, none) else (v.prepare context, some (v.prepare context).picture)

def onNewFrame (data : Option (Frame D)) (v : Video C K D) : Video C K D :=
  match data with
  | some frame => { v with renderer := v.renderer.onNewFrame context frame, isDirty := true }
  | none => v

def updateLayout (f : VideoLayout K → VideoLayout K) (v : Video C K D) : Video C K D :=
  { v with videoLayout := f v.videoLayout }

def updateRendererSize (width height : Nat) (v : Video C K D) : Video C K D :=
  { v with renderer := v.renderer.updateRenderedResolution width height }

def updateShaderType (shaderConfig : Config) (v : Video C K D) : Video C K D :=
  { v with requestedShaderConfig := shaderConfig }

/-- The constructor gives an image renderer its shaders right after. -/
def initializeRenderer (renderingOptions : RenderingOptions) (shaders : Chain) : Renderer C D :=
  if renderingOptions.hardwareAccelerated then
    Renderer.initializeBuffers context
      { kind := .framebuffer
        size := (renderingOptions.width, renderingOptions.height)
        shaders := shaders
        texture := { context := context } }
  else
    { kind := if renderingOptions.openglESVersion ≥ 3 then .imageES3 else .imageES2
      shaders := shaders
      texture := { context := context } }

def make (renderingOptions : RenderingOptions) (shaderConfig : Config) (skipDuplicateFrames ambientMode : Bool)
    (videoLayout : VideoLayout K) : Video C K D :=
  updateProgram context
    { requestedShaderConfig := shaderConfig
      skipDuplicateFrames := skipDuplicateFrames
      ambientMode := ambientMode
      videoLayout := videoLayout
      renderer := initializeRenderer context renderingOptions (getShader shaderConfig) }

/-! ### What is drawn -/

variable {context} {v : Video C K D}

theorem updateProgram_of_same
    (h : (v.loadedShaderType.any fun loaded => loaded.same v.requestedShaderConfig) = true) :
    v.updateProgram context = v := if_pos h

theorem updateProgram_of_not_same
    (h : (v.loadedShaderType.any fun loaded => loaded.same v.requestedShaderConfig) = false) :
    v.updateProgram context = v.loadProgram context := if_neg (by simp [h])

theorem programs_ne_nil (shaders : Chain) : programs context shaders ≠ [] := by
  simpa [programs] using shaders.passes_ne

theorem programs_eq_iff {config other : Config} :
    programs context (getShader config) = programs context (getShader other) ↔
      getShader config = getShader other := by
  refine ⟨fun h => getShader_eq_of_texts ?_, fun h => by rw [h]⟩
  have htexts := congrArg (List.map fun shader => (shader.vertex, shader.fragment)) h
  rw [programs, programs, List.map_map, List.map_map] at htexts
  exact htexts

theorem map_program_picture (v : Video C K D) : v.picture.passes.map Pass.program = v.shadersChain := by
  apply List.ext_getElem
  · simp [picture]
  · intro i hi _
    simp [picture, drawPass]

theorem vertices_picture {vertices : List K} (h : v.shadersChain ≠ []) :
    (v.picture.passes.getLast?.bind Pass.vertices = some vertices) ↔
      v.videoLayout.foregroundVertices = vertices := by
  have hlength : 0 < v.shadersChain.length := List.length_pos_of_ne_nil h
  have hlast : v.picture.passes.getLast? =
      some (v.drawPass (v.shadersChain.length - 1) v.shadersChain[v.shadersChain.length - 1]) := by
    rw [List.getLast?_eq_getElem?]
    simp [picture, hlength]
  rw [hlast]
  simp [drawPass]

theorem renderFrame_skipped (hskip : v.skipDuplicateFrames = true) (hclean : v.isDirty = false) :
    v.renderFrame context = (v, none) := if_pos (by simp [skips, hskip, hclean])

theorem renderFrame_drawn (h : v.skipDuplicateFrames = false ∨ v.isDirty = true) (hambient : v.ambientMode = false) :
    v.renderFrame context =
      (updateProgram context { v with isDirty := false },
        some (updateProgram context { v with isDirty := false }).picture) := by
  have hdraws : v.skips = false := by rcases h with h | h <;> simp [skips, h]
  simp [renderFrame, prepare, hdraws, hambient]

end Video

end SweetHome.Rendering
