import SweetHome.Lib.Ledger
import SweetHome.ShaderPasses

/-!
# The objects of the renderers

A framebuffer frees its memory with itself, but its GL names are deleted by hand. The image renderer deletes the
framebuffers of its passes before it builds others; the framebuffer renderer only overwrites them, and deletes
its own. So the names of the passes leak with each rebuild that finds some (`accounted_iff`).
-/

namespace SweetHome.GLObjects
open Step ShaderManager ImageRenderers ShaderPasses
open ES3Utils (Framebuffer Gl)

/-! ### The renderers, over any GL -/

/-- The two functions by which the renderers create and delete. -/
structure Functions (G : Type) where
  createFramebuffer : Nat → Nat → Bool → G → Framebuffer × G
  deleteFramebuffer : Framebuffer → G → G

namespace Functions
variable {G : Type} (fns : Functions G)

def buildShaderPass (width height : Nat) (result : List Framebuffer × G) (pass : Pass) : List Framebuffer × G :=
  let passWidth := (lround (width * pass.scale)).toNat
  let passHeight := (lround (height * pass.scale)).toNat
  let (data, gl) := fns.createFramebuffer passWidth passHeight false result.2
  (result.1 ++ [data], gl)

def buildShaderPasses (width height : Nat) (shaders : Chain) (gl : G) : List Framebuffer × G :=
  shaders.passes.dropLast.foldl (fns.buildShaderPass width height) ([], gl)

/-- `FramebufferRenderer::initializeBuffers` -/
def initializeBuffers (gl : G) (r : FramebufferRenderer) : FramebufferRenderer × G :=
  let (framebuffers, gl) := fns.buildShaderPasses r.width r.height r.shaders gl
  let gl := fns.deleteFramebuffer r.framebuffer gl
  let (framebuffer, gl) := fns.createFramebuffer r.width r.height r.depth gl
  ({ r with framebuffers := framebuffers, framebuffer := framebuffer }, gl)

/-- `ImageRendererES3::initializeTextures` -/
def initializeTextures (undefined : Nat → Nat → Rgb) (format : PixelFormat) (width height : Nat) (gl : G)
    (r : ImageRendererES3) : ImageRendererES3 × G :=
  let gl := r.framebuffers.foldl (fun gl i => fns.deleteFramebuffer i gl) gl
  let (framebuffers, gl) := fns.buildShaderPasses width height r.shaders gl
  ({ r with
    framebuffers := framebuffers
    currentTexture :=
      { r.currentTexture.image undefined width height with
        swizzle :=
          if format.swapRedAndBlueChannels then ⟨.blue, .green, .red⟩ else ⟨.red, .green, .blue⟩ }
    isDirty := false }, gl)

/-- `FramebufferRenderer::onNewFrame` -/
def framebufferOnNewFrame (width height : Nat) (gl : G) (r : FramebufferRenderer) : FramebufferRenderer × G :=
  let r := { r with lastFrameSize := (width, height) }
  if r.isDirty then
    let (r, gl) := fns.initializeBuffers gl r
    ({ r with isDirty := false }, gl)
  else (r, gl)

/-- `ImageRendererES3::onNewFrame` -/
def imageOnNewFrame (undefined : Nat → Nat → Rgb) {format : PixelFormat} (f : Buffer format) (gl : G)
    (r : ImageRendererES3) : ImageRendererES3 × G :=
  let data := ImageRendererES3.convert f
  let (r, gl) := if r.lastFrameSize ≠ (f.width, f.height) ∨ r.isDirty then
    fns.initializeTextures undefined format f.width f.height gl r else (r, gl)
  let bytesPerPixel := format.bytesPerPixel
  let stride := Texture.unpackStride bytesPerPixel (f.pitch / bytesPerPixel) f.width bytesPerPixel
  ({ r with
    lastFrameSize := (f.width, f.height)
    currentTexture := r.currentTexture.subImage 0 f.width f.height
      fun x y => fetch format.glType data (y * stride + x * bytesPerPixel) }, gl)

def onNewFrame (undefined : Nat → Nat → Rgb) {format : PixelFormat} (data : ShaderPasses.Data format) (gl : G) :
    Renderer → Option (Renderer × G)
  | .image r =>
    match data with
    | .pixels f => some (.image (fns.imageOnNewFrame undefined f gl r).1, (fns.imageOnNewFrame undefined f gl r).2)
    | .hardware .. => none
  | .framebuffer r =>
    let (r, gl) := fns.framebufferOnNewFrame data.size.1 data.size.2 gl r
    some (.framebuffer r, gl)

/-- The constructors. -/
def initializeRenderer (renderingOptions : Video.RenderingOptions) (shaders : Chain) (gl : G) : Renderer × G :=
  if renderingOptions.hardwareAccelerated then
    let r : FramebufferRenderer :=
      { depth := renderingOptions.useDepth
        width := renderingOptions.width
        height := renderingOptions.height
        shaders := shaders }
    (.framebuffer (fns.initializeBuffers gl r).1, (fns.initializeBuffers gl r).2)
  else (.image { currentTexture := newTexture, shaders := shaders }, gl)

end Functions

/-! ### The calls of GL -/

inductive Kind where
  | framebuffer
  | texture
  | renderbuffer
deriving DecidableEq

abbrev Object := Kind × Nat

abbrev Log := List (Ledger.Call Object)

/-- The names that `glGen...` gives out, which may depend on all that was called before: they are not zero, and
no object has them. -/
structure Driver where
  name : Kind → Log → Nat
  name_pos : ∀ kind log, 0 < name kind log
  name_new : ∀ kind log, (kind, name kind log) ∉ Ledger.live log

/-- `glGen...` -/
def Driver.gen (driver : Driver) (kind : Kind) (log : Log) : Nat × Log :=
  (driver.name kind log, .gen (kind, driver.name kind log) :: log)

/-- `glDelete...`, which ignores zero. -/
def delete (kind : Kind) (name : Nat) (log : Log) : Log :=
  if name = 0 then log else .delete (kind, name) :: log

def createFramebuffer (driver : Driver) (width height : Nat) (includeDepth : Bool) (log : Log) :
    Framebuffer × Log :=
  let (framebuffer, log) := driver.gen .framebuffer log
  let (texture, log) := driver.gen .texture log
  if includeDepth then
    let (depthBuffer, log) := driver.gen .renderbuffer log
    ({ framebuffer, texture, depth := some depthBuffer, width, height }, log)
  else ({ framebuffer, texture, width, height }, log)

def deleteFramebuffer (data : Framebuffer) (log : Log) : Log :=
  let log := delete .framebuffer data.framebuffer log
  let log := delete .texture data.texture log
  match data.depth with
  | none => log
  | some depth => delete .renderbuffer depth log

def Driver.functions (driver : Driver) : Functions Log := ⟨createFramebuffer driver, deleteFramebuffer⟩

/-! ### Runs -/

structure State where
  renderer : Renderer
  log : Log

inductive Action (format : PixelFormat) where
  | onNewFrame (data : ShaderPasses.Data format)
  | setShaders (shaders : Chain)
  | updateRenderedResolution (width height : Nat)

def init (driver : Driver) (renderingOptions : Video.RenderingOptions) (shaders : Chain) : State :=
  let (renderer, log) := driver.functions.initializeRenderer renderingOptions shaders []
  { renderer, log }

section
variable (driver : Driver) (undefined : Nat → Nat → Rgb) {format : PixelFormat}

def step : Step State (Action format) Empty
  | s, .onNewFrame data =>
    (driver.functions.onNewFrame undefined data s.log s.renderer).map fun (renderer, log) =>
      ({ renderer, log }, [])
  | s, .setShaders shaders => some ({ s with renderer := s.renderer.setShaders shaders }, [])
  | s, .updateRenderedResolution width height =>
    some ({ s with renderer := s.renderer.updateRenderedResolution width height }, [])

end

def objects (data : Framebuffer) : List Object :=
  (.framebuffer, data.framebuffer) :: (.texture, data.texture) ::
    data.depth.toList.map fun depth => (.renderbuffer, depth)

/-- The framebuffers that a renderer refers to; the image renderer has none of its own. -/
def referenced : Renderer → List Framebuffer
  | .image r => r.framebuffers
  | .framebuffer r => r.framebuffer :: r.framebuffers

/-- The ledger is what the renderer refers to, and no name has been deleted that was not there. -/
structure Accounted (s : State) : Prop where
  ledger : ∀ o, o ∈ Ledger.live s.log ↔ o ∈ (referenced s.renderer).flatMap objects
  once : Ledger.Clean s.log

/-- A rebuild of the framebuffer renderer that finds framebuffers of passes. -/
def Overwrites {format : PixelFormat} (s : State) (a : Action format) : Prop :=
  match s.renderer, a with
  | .framebuffer r, .onNewFrame _ => r.isDirty = true ∧ r.framebuffers ≠ []
  | _, _ => False

/-! ### What the functions do to the ledger -/

def Named (data : Framebuffer) : Prop :=
  data.framebuffer ≠ 0 ∧ data.texture ≠ 0 ∧ ∀ depth, data.depth = some depth → depth ≠ 0

section
variable {driver : Driver} {log : Log} {os : List Object}

theorem Driver.gen_holds (driver : Driver) (h : Ledger.Holds log os) (kind : Kind) :
    Ledger.Holds (driver.gen kind log).2 ((kind, (driver.gen kind log).1) :: os) :=
  h.gen (driver.name_new kind log)

theorem delete_holds {kind : Kind} {name : Nat} (hname : name ≠ 0) (h : Ledger.Holds log ((kind, name) :: os)) :
    Ledger.Holds (delete kind name log) os := by
  rw [delete, if_neg hname]
  exact h.delete

theorem createFramebuffer_spec (driver : Driver) (width height : Nat) (includeDepth : Bool)
    (h : Ledger.Holds log os) :
    Ledger.Holds (createFramebuffer driver width height includeDepth log).2
        (objects (createFramebuffer driver width height includeDepth log).1 ++ os) ∧
      Named (createFramebuffer driver width height includeDepth log).1 := by
  have hframebuffer := driver.gen_holds h .framebuffer
  have htexture := driver.gen_holds hframebuffer .texture
  have hpos : ∀ kind log, (driver.gen kind log).1 ≠ 0 := fun kind log => (driver.name_pos kind log).ne'
  cases includeDepth with
  | false =>
    refine ⟨htexture.perm (.swap _ _ _), hpos _ _, hpos _ _, ?_⟩
    rintro _ ⟨⟩
  | true =>
    have hdepth := driver.gen_holds htexture .renderbuffer
    refine ⟨hdepth.perm ?_, hpos _ _, hpos _ _, ?_⟩
    · exact List.Perm.trans (.swap _ _ _) (.trans (.cons _ (.swap _ _ _)) (.swap _ _ _))
    · rintro _ ⟨⟩
      exact hpos _ _

theorem deleteFramebuffer_holds {data : Framebuffer} (hdata : Named data)
    (h : Ledger.Holds log (objects data ++ os)) : Ledger.Holds (deleteFramebuffer data log) os := by
  obtain ⟨hframebuffer, htexture, hdepth⟩ := hdata
  have hboth := delete_holds htexture (delete_holds hframebuffer h)
  unfold deleteFramebuffer
  rcases hsome : data.depth with _ | depth
  · rwa [hsome] at hboth
  · rw [hsome] at hboth
    exact delete_holds (hdepth depth hsome) hboth

theorem foldl_deleteFramebuffer_holds {framebuffers : List Framebuffer} (hnamed : ∀ f ∈ framebuffers, Named f)
    (h : Ledger.Holds log (framebuffers.flatMap objects ++ os)) :
    Ledger.Holds (framebuffers.foldl (fun log i => deleteFramebuffer i log) log) os := by
  induction framebuffers generalizing log with
  | nil => exact h
  | cons data framebuffers ih =>
    obtain ⟨hdata, hrest⟩ := List.forall_mem_cons.1 hnamed
    rw [List.flatMap_cons, List.append_assoc] at h
    exact ih hrest (deleteFramebuffer_holds hdata h)

theorem buildShaderPasses_holds (driver : Driver) (width height : Nat) (shaders : Chain)
    (h : Ledger.Holds log os) :
    Ledger.Holds (driver.functions.buildShaderPasses width height shaders log).2
        ((driver.functions.buildShaderPasses width height shaders log).1.flatMap objects ++ os) ∧
      ∀ f ∈ (driver.functions.buildShaderPasses width height shaders log).1, Named f := by
  have hloop : ∀ (passes : List Pass) (result : List Framebuffer × Log),
      Ledger.Holds result.2 (result.1.flatMap objects ++ os) → (∀ f ∈ result.1, Named f) →
      let built := passes.foldl (driver.functions.buildShaderPass width height) result
      Ledger.Holds built.2 (built.1.flatMap objects ++ os) ∧ ∀ f ∈ built.1, Named f := by
    intro passes
    induction passes with
    | nil => exact fun result hresult hnamed => ⟨hresult, hnamed⟩
    | cons pass passes ih =>
      intro result hresult hnamed
      obtain ⟨hcreated, hdata⟩ := createFramebuffer_spec driver (lround (width * pass.scale)).toNat
        (lround (height * pass.scale)).toNat false hresult
      refine ih _ (hcreated.perm ?_) ?_
      · rw [← List.append_assoc]
        refine List.Perm.append_right os ?_
        rw [Functions.buildShaderPass, List.flatMap_append, List.flatMap_singleton]
        exact List.perm_append_comm
      · intro f hf
        rcases List.mem_append.1 hf with hf | hf
        · exact hnamed f hf
        · rw [List.mem_singleton.1 hf]; exact hdata
  exact hloop shaders.passes.dropLast ([], log) h (by simp)

/-- A rebuild of the framebuffer renderer gives back its own framebuffer, and nothing else of what is there. -/
theorem initializeBuffers_holds (driver : Driver) (r : FramebufferRenderer) {owned : List Object}
    (hdelete : ∀ {log os}, Ledger.Holds log (owned ++ os) → Ledger.Holds (deleteFramebuffer r.framebuffer log) os)
    (h : Ledger.Holds log (owned ++ os)) :
    Ledger.Holds (driver.functions.initializeBuffers log r).2
        ((referenced (.framebuffer (driver.functions.initializeBuffers log r).1)).flatMap objects ++ os) ∧
      ∀ f ∈ referenced (.framebuffer (driver.functions.initializeBuffers log r).1), Named f := by
  obtain ⟨hbuilt, hpasses⟩ := buildShaderPasses_holds driver r.width r.height r.shaders h
  have hdeleted := hdelete (hbuilt.perm (by
    rw [← List.append_assoc, ← List.append_assoc]
    exact List.Perm.append_right os List.perm_append_comm))
  obtain ⟨hcreated, hown⟩ := createFramebuffer_spec driver r.width r.height r.depth hdeleted
  refine ⟨?_, List.forall_mem_cons.2 ⟨hown, hpasses⟩⟩
  rw [← List.append_assoc] at hcreated
  exact hcreated

theorem initializeTextures_holds (driver : Driver) (undefined : Nat → Nat → Rgb) (format : PixelFormat)
    (width height : Nat) {r : ImageRendererES3} (hnamed : ∀ f ∈ r.framebuffers, Named f)
    (h : Ledger.Holds log (r.framebuffers.flatMap objects)) :
    Ledger.Holds (driver.functions.initializeTextures undefined format width height log r).2
        ((driver.functions.initializeTextures undefined format width height log r).1.framebuffers.flatMap objects) ∧
      ∀ f ∈ (driver.functions.initializeTextures undefined format width height log r).1.framebuffers, Named f := by
  rw [← List.append_nil (r.framebuffers.flatMap objects)] at h
  have hbuilt := buildShaderPasses_holds driver width height r.shaders (foldl_deleteFramebuffer_holds hnamed h)
  rwa [List.append_nil] at hbuilt

end

/-! ### Steps -/

/-- Each object of the ledger has one place in the renderer. -/
structure Inv (s : State) : Prop where
  holds : Ledger.Holds s.log ((referenced s.renderer).flatMap objects)
  named : ∀ f ∈ referenced s.renderer, Named f

section
variable {driver : Driver} {undefined : Nat → Nat → Rgb} {format : PixelFormat} {s t : State} {a : Action format}
  {es : List Empty}

theorem init_inv (driver : Driver) (renderingOptions : Video.RenderingOptions) (shaders : Chain) :
    Inv (init driver renderingOptions shaders) := by
  unfold init Functions.initializeRenderer
  cases renderingOptions.hardwareAccelerated with
  | false => exact ⟨Ledger.holds_nil, by rintro f ⟨⟩⟩
  | true =>
    -- the framebuffer that the constructor finds has no names
    have hdelete : ∀ {log : Log} {os : List Object}, Ledger.Holds log ([] ++ os) →
        Ledger.Holds (deleteFramebuffer {} log) os := id
    have hnil : Ledger.Holds ([] : Log) ([] ++ []) := Ledger.holds_nil
    obtain ⟨hholds, hnamed⟩ := initializeBuffers_holds driver
      { depth := renderingOptions.useDepth, width := renderingOptions.width, height := renderingOptions.height,
        shaders := shaders } hdelete hnil
    rw [List.append_nil] at hholds
    exact ⟨hholds, hnamed⟩

theorem imageOnNewFrame_inv (driver : Driver) (undefined : Nat → Nat → Rgb) (f : Buffer format) {r : ImageRendererES3}
    {log : Log} (hs : Inv ⟨.image r, log⟩) :
    Inv ⟨.image (driver.functions.imageOnNewFrame undefined f log r).1,
      (driver.functions.imageOnNewFrame undefined f log r).2⟩ := by
  unfold Functions.imageOnNewFrame
  dsimp only
  split
  · obtain ⟨hholds, hnamed⟩ :=
      initializeTextures_holds driver undefined format f.width f.height hs.named hs.holds
    exact ⟨hholds, hnamed⟩
  · exact ⟨hs.holds, hs.named⟩

theorem framebufferOnNewFrame_holds (driver : Driver) (width height : Nat) {r : FramebufferRenderer} {log : Log}
    (hs : Inv ⟨.framebuffer r, log⟩) :
    Ledger.Holds (driver.functions.framebufferOnNewFrame width height log r).2
        ((referenced (.framebuffer (driver.functions.framebufferOnNewFrame width height log r).1)).flatMap objects ++
          (if r.isDirty then r.framebuffers else []).flatMap objects) ∧
      ∀ f ∈ referenced (.framebuffer (driver.functions.framebufferOnNewFrame width height log r).1), Named f := by
  unfold Functions.framebufferOnNewFrame
  dsimp only
  rcases r.isDirty with _ | _
  · rw [if_neg Bool.false_ne_true, if_neg Bool.false_ne_true, List.flatMap_nil, List.append_nil]
    exact ⟨hs.holds, hs.named⟩
  · rw [if_pos rfl, if_pos rfl]
    exact initializeBuffers_holds driver { r with lastFrameSize := (width, height) }
      (deleteFramebuffer_holds (hs.named r.framebuffer List.mem_cons_self)) hs.holds

theorem referenced_setShaders (shaders : Chain) (r : Renderer) : referenced (r.setShaders shaders) = referenced r := by
  cases r with
  | image r => rfl
  | framebuffer r =>
    unfold Renderer.setShaders FramebufferRenderer.setShaders
    dsimp only
    split <;> rfl

theorem referenced_updateRenderedResolution (width height : Nat) (r : Renderer) :
    referenced (r.updateRenderedResolution width height) = referenced r := by
  cases r with
  | image r => rfl
  | framebuffer r =>
    unfold Renderer.updateRenderedResolution FramebufferRenderer.updateRenderedResolution
    dsimp only
    split <;> rfl

theorem Inv.congr {r r' : Renderer} {log : Log} (hs : Inv ⟨r, log⟩) (h : referenced r' = referenced r) :
    Inv ⟨r', log⟩ where
  holds := h ▸ hs.holds
  named := h ▸ hs.named

/-- What a step leaves is what the renderer refers to, and the passes that it has overwritten. -/
theorem step_spec (hs : Inv s) (h : step driver undefined s a = some (t, es)) :
    ∃ overwritten : List Framebuffer,
      Ledger.Holds t.log ((referenced t.renderer).flatMap objects ++ overwritten.flatMap objects) ∧
        (∀ f ∈ referenced t.renderer, Named f) ∧ (overwritten = [] ↔ ¬ Overwrites s a) := by
  have hkept : Inv t → ¬ Overwrites s a → ∃ overwritten : List Framebuffer,
      Ledger.Holds t.log ((referenced t.renderer).flatMap objects ++ overwritten.flatMap objects) ∧
        (∀ f ∈ referenced t.renderer, Named f) ∧ (overwritten = [] ↔ ¬ Overwrites s a) := by
    intro ht hnot
    refine ⟨[], ?_, ht.named, iff_of_true rfl hnot⟩
    rw [List.flatMap_nil, List.append_nil]
    exact ht.holds
  obtain ⟨renderer, log⟩ := s
  cases a with
  | onNewFrame data =>
    cases renderer with
    | image r =>
      cases data with
      | hardware width height => cases h
      | pixels f =>
        cases h
        exact hkept (imageOnNewFrame_inv driver undefined f hs) id
    | framebuffer r =>
      cases h
      obtain ⟨hholds, hnamed⟩ := framebufferOnNewFrame_holds driver data.size.1 data.size.2 hs
      refine ⟨if r.isDirty then r.framebuffers else [], hholds, hnamed, ?_⟩
      simp only [Overwrites, not_and, not_not]
      split <;> simp [*]
  | setShaders shaders =>
    cases h
    exact hkept (hs.congr (referenced_setShaders shaders renderer)) (by cases renderer <;> exact id)
  | updateRenderedResolution width height =>
    cases h
    exact hkept (hs.congr (referenced_updateRenderedResolution width height renderer)) (by cases renderer <;> exact id)

theorem flatMap_objects_eq_nil (framebuffers : List Framebuffer) :
    framebuffers.flatMap objects = [] ↔ framebuffers = [] := by
  cases framebuffers <;> simp [objects]

theorem accounted_step_iff (hs : Inv s) (h : step driver undefined s a = some (t, es)) :
    Accounted t ↔ ¬ Overwrites s a := by
  obtain ⟨overwritten, hholds, -, hoverwritten⟩ := step_spec hs h
  rw [← hoverwritten, ← flatMap_objects_eq_nil, ← hholds.live_iff]
  exact ⟨fun ht => ht.ledger, fun ht => ⟨ht, hholds.clean⟩⟩

theorem step_inv (hs : Inv s) (h : step driver undefined s a = some (t, es)) (ha : ¬ Overwrites s a) : Inv t := by
  obtain ⟨overwritten, hholds, hnamed, hoverwritten⟩ := step_spec hs h
  obtain rfl := hoverwritten.2 ha
  rw [List.flatMap_nil, List.append_nil] at hholds
  exact ⟨hholds, hnamed⟩

end

/-- From the constructor on, the ledger is what the renderer refers to as long as no rebuild of the framebuffer
renderer finds passes, and no longer. -/
theorem accounted_iff (driver : Driver) (undefined : Nat → Nat → Rgb) {format : PixelFormat}
    (renderingOptions : Video.RenderingOptions) (shaders : Chain) (as : List (Action format)) :
    Along (step driver undefined) (fun _ _ t _ => Accounted t) (init driver renderingOptions shaders) as ↔
      Along (step driver undefined) (fun s a _ _ => ¬ Overwrites s a) (init driver renderingOptions shaders) as :=
  along_iff (I := Inv) accounted_step_iff step_inv (init_inv driver renderingOptions shaders) as

def next : Log → Nat
  | [] => 1
  | .gen o :: log => if next log ≤ o.2 then o.2 + 1 else next log
  | .delete _ :: log => next log

theorem next_pos (log : Log) : 0 < next log := by
  induction log with
  | nil => exact Nat.one_pos
  | cons call log ih =>
    cases call with
    | gen o => simp only [next]; split <;> omega
    | delete o => exact ih

theorem lt_next {log : Log} {o : Kind × Nat} (h : o ∈ Ledger.live log) : o.2 < next log := by
  induction log with
  | nil => simp [Ledger.live] at h
  | cons call log ih =>
    cases call with
    | gen o' =>
      simp only [next]
      rcases Finset.mem_insert.1 h with rfl | h
      · split <;> omega
      · have hlt := ih h
        split <;> omega
    | delete o' => exact ih (Finset.mem_of_mem_erase h)

def above : Driver where
  name _ log := next log
  name_pos _ log := next_pos log
  name_new _ _ hmem := lt_irrefl _ (lt_next hmem)

def black : Nat → Nat → Rgb := fun _ _ => ⟨0, 0, 0⟩

/-- A core that draws with GL, under a shader of two passes. -/
def upscaled : State :=
  init above { hardwareAccelerated := true, width := 256, height := 224, useDepth := true }
    (getShader ⟨.upscaleCut2, [], List.nodup_nil⟩)

/-- The core draws at another resolution, and the framebuffer of the first pass leaks. -/
theorem not_accounted_resized :
    ¬ Along (step above black) (fun _ _ t _ => Accounted t) upscaled
      [.updateRenderedResolution 512 448, .onNewFrame (.hardware 512 448 : ShaderPasses.Data .rgb565)] := by
  rintro ⟨-, haccounted, -⟩
  have hreferenced := (haccounted.ledger (.framebuffer, 1)).1 (by decide)
  revert hreferenced
  decide

end SweetHome.GLObjects
