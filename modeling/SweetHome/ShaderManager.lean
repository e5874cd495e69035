import Mathlib.Data.List.Basic
import Mathlib.Data.Rat.Defs
import Mathlib.Tactic.IntervalCases

/-!
# The shaders

`getShader` turns a config into a chain of one to three passes. A pass names the texts that its
program is compiled from, with the defines that the params of the config put in front of them. Only the
passes after the first one read what the pass before them has drawn (`declaresPreviousPass_iff`).
-/

namespace SweetHome.ShaderManager

inductive ShaderType where
  | default
  | crt
  | lcd
  | sharp
  | upscaleCut
  | upscaleCut2
  | upscaleCut3
deriving DecidableEq, Repr

/-- The entries of an `unordered_map`, in the order that it is iterated. -/
abbrev Params := List (String × String)

structure Config where
  type : ShaderType
  params : Params
  keys_nodup : (params.map Prod.fst).Nodup

/-- `operator==`: maps are compared without their order. -/
def Config.same (config other : Config) : Bool :=
  config.type == other.type && config.params.isPerm other.params

/-- The constants that the texts of the passes end with. -/
inductive Source where
  | defaultShaderVertex
  | defaultShaderFragment
  | defaultSharpFragment
  | crtShaderFragment
  | lcdShaderFragment
  | cutUpscaleVertex
  | cutUpscaleFragment
  | cut2UpscalePass0Vertex
  | cut2UpscalePass0Fragment
  | cut2UpscalePass1Vertex
  | cut2UpscalePass1Fragment
  | cut3UpscalePass0Vertex
  | cut3UpscalePass0Fragment
  | cut3UpscalePass1Vertex
  | cut3UpscalePass1Fragment
  | cut3UpscalePass2Vertex
  | cut3UpscalePass2Fragment
deriving DecidableEq, Repr

/-- Whether a program with this fragment shader has the uniform `previousPass`. -/
def Source.declaresPreviousPass : Source → Bool
  | .cut2UpscalePass1Fragment | .cut3UpscalePass1Fragment | .cut3UpscalePass2Fragment => true
  | _ => false

structure Text where
  defines : String := ""
  source : Source
deriving DecidableEq, Repr

structure Pass where
  vertex : Text
  fragment : Text
  linear : Bool
  scale : ℚ
deriving DecidableEq

structure Chain where
  passes : List Pass
  linearTexture : Bool
  passes_ne : passes ≠ []
deriving DecidableEq

def cutUpscaleParams : Params :=
  [("USE_DYNAMIC_BLEND", "1"),
    ("BLEND_MIN_CONTRAST_EDGE", "0.25"),
    ("BLEND_MAX_CONTRAST_EDGE", "0.75"),
    ("BLEND_MIN_SHARPNESS", "0.0"),
    ("BLEND_MAX_SHARPNESS", "1.0"),
    ("STATIC_BLEND_SHARPNESS", "1.0"),
    ("EDGE_USE_FAST_LUMA", "0"),
    ("EDGE_MIN_VALUE", "0.03"),
    ("EDGE_MIN_CONTRAST", "2.0")]

def cut2UpscaleParams : Params :=
  [("USE_DYNAMIC_BLEND", "1"),
    ("BLEND_MIN_CONTRAST_EDGE", "0.00"),
    ("BLEND_MAX_CONTRAST_EDGE", "0.50"),
    ("BLEND_MIN_SHARPNESS", "0.0"),
    ("BLEND_MAX_SHARPNESS", "0.75"),
    ("STATIC_BLEND_SHARPNESS", "0.00"),
    ("EDGE_USE_FAST_LUMA", "0"),
    ("EDGE_MIN_VALUE", "0.05"),
    ("SOFT_EDGES_SHARPENING", "1"),
    ("SOFT_EDGES_SHARPENING_AMOUNT", "0.75"),
    ("HARD_EDGES_THRESHOLD", "0.2")]

def cut3UpscaleParams : Params :=
  [("USE_DYNAMIC_BLEND", "1"),
    ("BLEND_MIN_CONTRAST_EDGE", "0.00"),
    ("BLEND_MAX_CONTRAST_EDGE", "0.50"),
    ("BLEND_MIN_SHARPNESS", "0.0"),
    ("BLEND_MAX_SHARPNESS", "0.75"),
    ("STATIC_BLEND_SHARPNESS", "0.00"),
    ("EDGE_USE_FAST_LUMA", "0"),
    ("EDGE_MIN_VALUE", "0.05"),
    ("SOFT_EDGES_SHARPENING", "1"),
    ("SOFT_EDGES_SHARPENING_AMOUNT", "0.75"),
    ("HARD_EDGES_THRESHOLD", "0.2"),
    ("HARD_EDGES_SEARCH_MIN_CONTRAST", "0.5"),
    ("HARD_EDGES_SEARCH_MAX_DISTANCE", "4")]

/-- Custom params win over those of the shader, which `insert` does not overwrite. -/
def buildDefines (baseParams customParams : Params) : String :=
  let params := customParams ++
    baseParams.filter fun param => !customParams.any fun custom => custom.1 == param.1
  params.foldl (fun result param => result ++ "#define " ++ param.1 ++ " " ++ param.2 ++ "\n") "" ++ "\n"

def getShader (config : Config) : Chain :=
  match config.type with
  | .default => ⟨[⟨⟨"", .defaultShaderVertex⟩, ⟨"", .defaultShaderFragment⟩, true, 1⟩], true, nofun⟩
  | .crt => ⟨[⟨⟨"", .defaultShaderVertex⟩, ⟨"", .crtShaderFragment⟩, true, 1⟩], true, nofun⟩
  | .lcd => ⟨[⟨⟨"", .defaultShaderVertex⟩, ⟨"", .lcdShaderFragment⟩, true, 1⟩], true, nofun⟩
  | .sharp => ⟨[⟨⟨"", .defaultShaderVertex⟩, ⟨"", .defaultSharpFragment⟩, true, 1⟩], true, nofun⟩
  | .upscaleCut =>
    let defines := buildDefines cutUpscaleParams config.params
    ⟨[⟨⟨defines, .cutUpscaleVertex⟩, ⟨defines, .cutUpscaleFragment⟩, false, 1⟩], false, nofun⟩
  | .upscaleCut2 =>
    let defines := buildDefines cut2UpscaleParams config.params
    ⟨[⟨⟨defines, .cut2UpscalePass0Vertex⟩, ⟨defines, .cut2UpscalePass0Fragment⟩, false, 1⟩,
      ⟨⟨defines, .cut2UpscalePass1Vertex⟩, ⟨defines, .cut2UpscalePass1Fragment⟩, false, 1⟩],
      false, nofun⟩
  | .upscaleCut3 =>
    let defines := buildDefines cut3UpscaleParams config.params
    ⟨[⟨⟨defines, .cut3UpscalePass0Vertex⟩, ⟨defines, .cut3UpscalePass0Fragment⟩, false, 1⟩,
      ⟨⟨defines, .cut3UpscalePass1Vertex⟩, ⟨defines, .cut3UpscalePass1Fragment⟩, false, 1⟩,
      ⟨⟨defines, .cut3UpscalePass2Vertex⟩, ⟨defines, .cut3UpscalePass2Fragment⟩, false, 1⟩],
      false, nofun⟩

theorem Config.type_eq_of_same {config other : Config} (h : config.same other) :
    config.type = other.type := by
  simp only [Config.same, Bool.and_eq_true, beq_iff_eq] at h
  exact h.1

theorem Config.same_self (config : Config) : config.same config := by
  simp [Config.same, List.isPerm_iff]

theorem getShader_eq_of_texts {config other : Config}
    (h : (getShader config).passes.map (fun item => (item.vertex, item.fragment)) =
      (getShader other).passes.map (fun item => (item.vertex, item.fragment))) :
    getShader config = getShader other := by
  unfold getShader at *
  rcases config with ⟨type, params, hkeys⟩
  rcases other with ⟨otherType, otherParams, hother⟩
  cases type <;> cases otherType <;> simp_all

theorem passes_length_congr {config other : Config} (h : config.type = other.type) :
    (getShader config).passes.length = (getShader other).passes.length := by
  unfold getShader
  rw [h]
  cases other.type <;> rfl

theorem declaresPreviousPass_iff (config : Config) {i : Nat} (hi : i < (getShader config).passes.length) :
    (getShader config).passes[i].fragment.source.declaresPreviousPass ↔ 0 < i := by
  revert hi
  unfold getShader
  cases config.type <;> intro hi <;>
    simp only [List.length_cons, List.length_nil, zero_add, Nat.reduceAdd] at hi <;>
    interval_cases i <;> simp [Source.declaresPreviousPass]

end SweetHome.ShaderManager
