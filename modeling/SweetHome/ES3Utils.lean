import SweetHome.ShaderManager
import SweetHome.Lib.Round
import Mathlib.Data.List.Nodup
import Mathlib.Data.Rat.Floor
import Mathlib.Logic.Function.Basic

/-!
# Framebuffers of the passes

`buildShaderPasses` creates one framebuffer for each pass of a chain but the last, which draws to the
screen. `Gl.Holds` says that framebuffers are objects of their own and still write the textures that
they were created with; creating others, and deleting others, keeps it.
-/

namespace SweetHome.ES3Utils
open ShaderManager

/-- The names that GL gives out next, and the textures that framebuffers write. A name is never given
out again, where GL only avoids those in use; 0 is the screen. -/
structure Gl where
  framebuffer : Nat := 1
  texture : Nat := 1
  renderbuffer : Nat := 1
  attachment : Nat → Option Nat := fun _ => none
  framebuffer_pos : 0 < framebuffer

structure Framebuffer where
  framebuffer : Nat := 0
  texture : Nat := 0
  depth : Option Nat := none
  width : Nat := 0
  height : Nat := 0

def createFramebuffer (width height : Nat) (includeDepth : Bool) (gl : Gl) : Framebuffer × Gl :=
  ({ framebuffer := gl.framebuffer
     texture := gl.texture
     depth := if includeDepth then some gl.renderbuffer else none
     width := width
     height := height },
    { framebuffer := gl.framebuffer + 1
      texture := gl.texture + 1
      renderbuffer := if includeDepth then gl.renderbuffer + 1 else gl.renderbuffer
      attachment := Function.update gl.attachment gl.framebuffer (some gl.texture)
      framebuffer_pos := Nat.succ_pos _ })

def deleteFramebuffer (data : Framebuffer) (gl : Gl) : Gl :=
  { gl with attachment := Function.update gl.attachment data.framebuffer none }

/-- The body of the loop of `buildShaderPasses`. -/
def buildShaderPass (width height : Nat) (result : List Framebuffer × Gl) (pass : Pass) :
    List Framebuffer × Gl :=
  let passWidth := (lround (width * pass.scale)).toNat
  let passHeight := (lround (height * pass.scale)).toNat
  let (data, gl) := createFramebuffer passWidth passHeight false result.2
  (result.1 ++ [data], gl)

def buildShaderPasses (width height : Nat) (shaders : Chain) (gl : Gl) : List Framebuffer × Gl :=
  shaders.passes.dropLast.foldl (buildShaderPass width height) ([], gl)

structure PassData where
  framebuffer : Option Nat := none
  texture : Option Nat := none
  width : Option Nat := none
  height : Option Nat := none

/-- `getPassData` of both renderers. -/
def passData (framebuffers : List Framebuffer) (layer : Nat) : PassData where
  framebuffer := framebuffers[layer]?.map Framebuffer.framebuffer
  width := framebuffers[layer]?.map Framebuffer.width
  height := framebuffers[layer]?.map Framebuffer.height
  texture := if 0 < layer then framebuffers[layer - 1]?.map Framebuffer.texture else none

/-! ### Framebuffers that are held -/

structure Gl.Holds (gl : Gl) (framebuffers : List Framebuffer) : Prop where
  pos : ∀ f ∈ framebuffers, 0 < f.framebuffer
  lt : ∀ f ∈ framebuffers, f.framebuffer < gl.framebuffer
  nodup : (framebuffers.map Framebuffer.framebuffer).Nodup
  attached : ∀ f ∈ framebuffers, gl.attachment f.framebuffer = some f.texture

variable {gl : Gl} {framebuffers : List Framebuffer}

theorem holds_nil (gl : Gl) : gl.Holds [] := by
  constructor <;> simp

theorem Gl.Holds.create (h : gl.Holds framebuffers) (width height : Nat) (includeDepth : Bool) :
    (createFramebuffer width height includeDepth gl).2.Holds
      (framebuffers ++ [(createFramebuffer width height includeDepth gl).1]) := by
  have hne : ∀ f ∈ framebuffers, f.framebuffer ≠ gl.framebuffer := fun f hf => (h.lt f hf).ne
  constructor
  · intro f hf
    rcases List.mem_append.1 hf with hf | hf
    · exact h.pos f hf
    · rw [List.mem_singleton.1 hf]; exact gl.framebuffer_pos
  · intro f hf
    show f.framebuffer < gl.framebuffer + 1
    rcases List.mem_append.1 hf with hf | hf
    · have := h.lt f hf
      omega
    · rw [List.mem_singleton.1 hf]; exact Nat.lt_succ_self _
  · rw [List.map_append, List.nodup_append]
    refine ⟨h.nodup, List.nodup_singleton _, ?_⟩
    intro a ha b hb
    obtain ⟨f, hf, rfl⟩ := List.mem_map.1 ha
    rw [List.map_singleton, List.mem_singleton] at hb
    rw [hb]
    exact hne f hf
  · intro f hf
    show Function.update gl.attachment gl.framebuffer (some gl.texture) f.framebuffer = _
    rcases List.mem_append.1 hf with hf | hf
    · rw [Function.update_of_ne (hne f hf)]; exact h.attached f hf
    · rw [List.mem_singleton.1 hf]; exact Function.update_self ..

theorem Gl.Holds.left {others : List Framebuffer} (h : gl.Holds (framebuffers ++ others)) :
    gl.Holds framebuffers where
  pos f hf := h.pos f (List.mem_append_left _ hf)
  lt f hf := h.lt f (List.mem_append_left _ hf)
  nodup := by
    have hnodup := h.nodup
    rw [List.map_append] at hnodup
    exact hnodup.of_append_left
  attached f hf := h.attached f (List.mem_append_left _ hf)

theorem Gl.Holds.delete (h : gl.Holds framebuffers) (data : Framebuffer)
    (hne : ∀ f ∈ framebuffers, f.framebuffer ≠ data.framebuffer) :
    (deleteFramebuffer data gl).Holds framebuffers where
  pos := h.pos
  lt := h.lt
  nodup := h.nodup
  attached f hf := by
    show Function.update gl.attachment data.framebuffer none f.framebuffer = _
    rw [Function.update_of_ne (hne f hf)]
    exact h.attached f hf

/-- One framebuffer for each pass but the last, each a new object. -/
theorem buildShaderPasses_spec (width height : Nat) (shaders : Chain) (gl : Gl) :
    (buildShaderPasses width height shaders gl).2.Holds (buildShaderPasses width height shaders gl).1 ∧
    (buildShaderPasses width height shaders gl).1.length + 1 = shaders.passes.length ∧
    ∀ f ∈ (buildShaderPasses width height shaders gl).1, gl.framebuffer ≤ f.framebuffer := by
  have hloop : ∀ (passes : List Pass) (result : List Framebuffer × Gl), result.2.Holds result.1 →
      gl.framebuffer ≤ result.2.framebuffer → (∀ f ∈ result.1, gl.framebuffer ≤ f.framebuffer) →
      let built := passes.foldl (buildShaderPass width height) result
      built.2.Holds built.1 ∧ built.1.length = result.1.length + passes.length ∧
        ∀ f ∈ built.1, gl.framebuffer ≤ f.framebuffer := by
    intro passes
    induction passes with
    | nil => exact fun result hheld _ hnew => ⟨hheld, rfl, hnew⟩
    | cons pass passes ih =>
      intro result hheld hle hnew
      have hgl : gl.framebuffer ≤ (buildShaderPass width height result pass).2.framebuffer :=
        Nat.le_succ_of_le hle
      have hall : ∀ f ∈ (buildShaderPass width height result pass).1,
          gl.framebuffer ≤ f.framebuffer := by
        intro f hf
        rcases List.mem_append.1 hf with hf | hf
        · exact hnew f hf
        · rw [List.mem_singleton.1 hf]; exact hle
      obtain ⟨hbuilt, hlength, hbound⟩ := ih _ (hheld.create _ _ false) hgl hall
      refine ⟨hbuilt, hlength.trans ?_, hbound⟩
      simp only [buildShaderPass, List.length_append, List.length_cons, List.length_nil]
      omega
  obtain ⟨hheld, hlength, hnew⟩ :=
    hloop shaders.passes.dropLast ([], gl) (holds_nil gl) le_rfl (by simp)
  have hpos := List.length_pos_of_ne_nil shaders.passes_ne
  rw [List.length_dropLast] at hlength
  refine ⟨hheld, ?_, hnew⟩
  show (shaders.passes.dropLast.foldl (buildShaderPass width height) ([], gl)).1.length + 1 = _
  rw [hlength, List.length_nil]
  omega

end SweetHome.ES3Utils
