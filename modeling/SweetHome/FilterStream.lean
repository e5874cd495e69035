import SweetHome.Audio
import SweetHome.Lib.Pull
import SweetHome.Lib.Run
import Mathlib.Data.Rat.Floor
import Mathlib.Logic.Function.Basic
import Mathlib.Tactic.Positivity
import Mathlib.Tactic.Ring

/-!
# The stream that adapts the size of the callbacks

`Audio` asks for callbacks of a fixed size. Where the device does not keep to one, oboe puts a `FilterAudioStream` in
between: the callback of the device pulls frames through a flow graph, `SinkI16` from `SourceI16Caller`, and that
through a `FixedBlockReader` from the callback of the application. The samples become floats and samples again. What
reaches the device is what the application made, bit for bit, whatever sizes the device asks for, and every call to
the application is for a whole block (`onAudioReady_stream`).
-/

namespace SweetHome.FilterStream

inductive DataCallbackResult where
  | «continue»
  | stop
deriving DecidableEq, Repr

/-! ### The block reader -/

/-- The bytes that were written to the buffer, and how many of them count or a negative error. -/
abbrev FixedBlockProcessor (σ : Type) := Nat → σ → (List UInt8 × Int) × σ

structure FixedBlockReader where
  mStorage : List UInt8
  mSize : Nat
  mPosition : Nat
  mValid : Nat
deriving Repr

def FixedBlockReader.open (bytesPerFixedBlock : Nat) : FixedBlockReader where
  mStorage := List.replicate bytesPerFixedBlock 0
  mSize := bytesPerFixedBlock
  mPosition := 0
  mValid := 0

namespace FixedBlockReader
variable {σ : Type} (onProcessFixedBlock : FixedBlockProcessor σ)

def readFromStorage (r : FixedBlockReader) (numBytes : Nat) : List UInt8 × FixedBlockReader :=
  let dataAvailable := r.mValid - r.mPosition
  let bytesToRead := if dataAvailable < numBytes then dataAvailable else numBytes
  ((r.mStorage.drop r.mPosition).take bytesToRead, { r with mPosition := r.mPosition + bytesToRead })

/-- The loop of `read`, which has put `buffer` where the caller wants it. -/
def readLoop (numBytes : Nat) : Nat → Nat → List UInt8 → FixedBlockReader → σ →
    Option (Int × List UInt8 × FixedBlockReader × σ)
  | fuel, bytesLeft, buffer, r, s =>
    if bytesLeft = 0 then some (numBytes, buffer, r, s)
    else match fuel with
    | 0 => none
    | fuel + 1 =>
      if r.mPosition < r.mValid then
        let (bytes, r) := r.readFromStorage bytesLeft
        readLoop numBytes fuel (bytesLeft - bytes.length) (buffer ++ bytes) r s
      else if r.mSize ≤ bytesLeft then
        let ((bytes, bytesRead), s) := onProcessFixedBlock r.mSize s
        if bytesRead < 0 then some (bytesRead, buffer, r, s)
        else readLoop numBytes fuel (bytesLeft - bytesRead.toNat) (buffer ++ bytes.take bytesRead.toNat) r s
      else
        let ((bytes, bytesRead), s) := onProcessFixedBlock r.mSize s
        if bytesRead < 0 then some (bytesRead, buffer, { r with mStorage := bytes }, s)
        else
          let r := { r with mStorage := bytes, mPosition := 0, mValid := bytesRead.toNat }
          if bytesRead = 0 then some (numBytes - bytesLeft, buffer, r, s)
          else readLoop numBytes fuel bytesLeft buffer r s

/-- A turn of the loop takes a byte or is followed by one that does. -/
def read (r : FixedBlockReader) (numBytes : Nat) (s : σ) : Option (Int × List UInt8 × FixedBlockReader × σ) :=
  readLoop onProcessFixedBlock numBytes (2 * numBytes) numBytes [] r s

end FixedBlockReader

/-! ### Samples -/

/-- An `int16_t` in memory. -/
def sampleBytes (x : Int16) : List UInt8 :=
  [UInt8.ofNat (x.toUInt16.toNat % 256), UInt8.ofNat (x.toUInt16.toNat / 256)]

/-- What is in memory, read as an array of `int16_t`. -/
def samples : List UInt8 → List Int16
  | low :: high :: bytes => (UInt16.ofNat (low.toNat + 256 * high.toNat)).toInt16 :: samples bytes
  | _ => []

/-- The floats of `SourceI16Caller`: every one of them is exact. -/
def toFloat (x : Int16) : ℚ := x.toInt * (1 / 32768)

/-- `SinkI16` cuts off what is behind the point, and clips. -/
def toI16 (x : ℚ) : Int16 :=
  let n := Audio.truncate (x * 32768)
  Int16.ofInt (min Int16.maxValue.toInt (max Int16.minValue.toInt n))

/-! ### The flow graph -/

variable {σ : Type}

/-- The callback of the application: what it puts into the buffer of so many frames, and what it returns. -/
abbrev DataCallback (σ : Type) := Nat → σ → (List Int16 × DataCallbackResult) × σ

structure FlowGraphNode where
  mLastCallCount : Int := -1
  mLastFrameCount : Int := 0
deriving Repr

inductive Node where
  | sourceCaller
  | sink
deriving DecidableEq, Repr

structure DataConversionFlowGraph (σ : Type) where
  nodes : Node → FlowGraphNode
  mBlockReader : FixedBlockReader
  /-- The frames in the buffer of the output port of the source. -/
  output : List ℚ
  /-- The application. -/
  app : σ

def kDefaultBufferSize : Int := 8

variable (channelCount : Nat) (onAudioReady : DataCallback σ)

def bytesPerFrame : Nat := channelCount * 2

/-- `AudioSourceCaller::onProcessFixedBlock` with a data callback. -/
def onProcessFixedBlock : FixedBlockProcessor σ := fun numBytes app =>
  let numFrames := numBytes / bytesPerFrame channelCount
  let ((data, callbackResult), app) := onAudioReady numFrames app
  ((data.flatMap sampleBytes, if callbackResult = .continue then (numBytes : Int) else -1), app)

namespace DataConversionFlowGraph

/-- `SourceI16Caller::onProcess` -/
def sourceOnProcess (numFrames : Int) (g : DataConversionFlowGraph σ) : Option (Int × DataConversionFlowGraph σ) := do
  let numBytes := bytesPerFrame channelCount * numFrames.toNat
  let (bytesRead, bytes, reader, app) ←
    g.mBlockReader.read (onProcessFixedBlock channelCount onAudioReady) numBytes g.app
  let framesRead := bytesRead.tdiv (bytesPerFrame channelCount)
  let numSamples := framesRead * channelCount
  some (framesRead, { g with
    mBlockReader := reader, app, output := ((samples bytes).take numSamples.toNat).map toFloat })

def setNode (g : DataConversionFlowGraph σ) (node : Node) (n : FlowGraphNode) : DataConversionFlowGraph σ :=
  { g with nodes := Function.update g.nodes node n }

/-- `FlowGraphNode::pullData`, with the pull from the input ports and the processing of the node. -/
def nodePullData (node : Node) (pullInputs onProcess : Int → DataConversionFlowGraph σ →
    Option (Int × DataConversionFlowGraph σ)) (numFrames callCount : Int) (g : DataConversionFlowGraph σ) :
    Option (Int × DataConversionFlowGraph σ) := do
  if (g.nodes node).mLastCallCount < callCount then
    let g := g.setNode node { g.nodes node with mLastCallCount := callCount }
    let (frameCount, g) ← pullInputs numFrames g
    let (frameCount, g) ← if 0 < frameCount then onProcess frameCount g else some (frameCount, g)
    some (frameCount, g.setNode node { g.nodes node with mLastFrameCount := frameCount })
  else some ((g.nodes node).mLastFrameCount, g)

/-- `FlowGraphPortFloatOutput::pullData` of the source, which has no input ports. -/
def outputPullData (callCount numFrames : Int) (g : DataConversionFlowGraph σ) :
    Option (Int × DataConversionFlowGraph σ) :=
  let numFrames := min kDefaultBufferSize numFrames
  nodePullData .sourceCaller (fun n g => some (n, g)) (sourceOnProcess channelCount onAudioReady) numFrames callCount g

/-- `FlowGraphSink::pullData` -/
def sinkPullData (numFrames : Int) (g : DataConversionFlowGraph σ) : Option (Int × DataConversionFlowGraph σ) :=
  let callCount := (g.nodes .sink).mLastCallCount + 1
  nodePullData .sink (fun n g => outputPullData channelCount onAudioReady callCount n g) (fun n g => some (n, g))
    numFrames callCount g

/-- The loop of `SinkI16::read`, with what it has written. -/
def readLoop : Nat → Int → List Int16 → DataConversionFlowGraph σ →
    Option (Int × List Int16 × DataConversionFlowGraph σ)
  | fuel, framesLeft, data, g =>
    if framesLeft ≤ 0 then some (framesLeft, data, g)
    else match fuel with
    | 0 => none
    | fuel + 1 => do
      let (framesRead, g) ← sinkPullData channelCount onAudioReady framesLeft g
      if framesRead ≤ 0 then some (framesLeft, data, g)
      else
        let numSamples := framesRead * channelCount
        readLoop fuel (framesLeft - framesRead) (data ++ (g.output.take numSamples.toNat).map toI16) g

def read (numFrames : Nat) (g : DataConversionFlowGraph σ) :
    Option (Int × List Int16 × DataConversionFlowGraph σ) := do
  let (framesLeft, data, g) ← readLoop channelCount onAudioReady numFrames numFrames [] g
  some (numFrames - framesLeft, data, g)

end DataConversionFlowGraph

/-! ### The streams -/

structure State (σ : Type) where
  mFlowGraph : DataConversionFlowGraph σ
  /-- Of the stream of the device. -/
  mDataCallbackEnabled : Bool

/-- `FilterAudioStream::onAudioReady`. The graph of an output stream keeps `Continue` as its result. -/
def filterOnAudioReady (numFrames : Nat) (g : DataConversionFlowGraph σ) :
    Option ((List Int16 × DataCallbackResult) × DataConversionFlowGraph σ) := do
  let (framesProcessed, data, g) ← g.read channelCount onAudioReady numFrames
  some ((data, if framesProcessed < numFrames then .stop else .continue), g)

/-- `AudioStream::fireDataCallback` for so many frames, with what it leaves in the buffer of the device. -/
def step : Step (State σ) Nat (List Int16) := fun s numFrames => do
  if s.mDataCallbackEnabled then
    let ((data, result), g) ← filterOnAudioReady channelCount onAudioReady numFrames s.mFlowGraph
    some ({ s with mFlowGraph := g, mDataCallbackEnabled := result = .continue }, [data])
  else none

/-- `DataConversionFlowGraph::configure` -/
def configure (framesPerCallback : Nat) (app : σ) : State σ where
  mFlowGraph := {
    nodes := fun _ => {}
    mBlockReader := .open (channelCount * framesPerCallback * 2)
    output := []
    app }
  mDataCallbackEnabled := true

/-! ### What the reader takes -/

namespace FixedBlockReader

/-- What is in the storage and was not read. -/
def unread (r : FixedBlockReader) : List UInt8 := (r.mStorage.drop r.mPosition).take (r.mValid - r.mPosition)

structure Inv (size : Nat) (r : FixedBlockReader) : Prop where
  mSize : r.mSize = size
  mStorage : r.mStorage.length = size
  mPosition : r.mPosition ≤ r.mValid
  mValid : r.mValid ≤ size

variable {size : Nat} {r : FixedBlockReader}

theorem inv_open (size : Nat) : Inv size (.open size) :=
  ⟨rfl, List.length_replicate, Nat.le_refl 0, Nat.zero_le size⟩

theorem Inv.length_unread (h : Inv size r) : r.unread.length = r.mValid - r.mPosition := by
  have hstorage := h.mStorage
  have hvalid := h.mValid
  rw [unread, List.length_take, List.length_drop]
  omega

theorem Inv.unread_eq_nil (h : Inv size r) (hread : ¬ r.mPosition < r.mValid) : r.unread = [] :=
  List.eq_nil_of_length_eq_zero (by rw [h.length_unread]; omega)

/-- Reading from the storage takes the first of what is unread. -/
theorem Inv.readFromStorage (h : Inv size r) (numBytes : Nat) :
    Inv size (r.readFromStorage numBytes).2 ∧
      (r.readFromStorage numBytes).1.length = min numBytes r.unread.length ∧
      r.unread = (r.readFromStorage numBytes).1 ++ (r.readFromStorage numBytes).2.unread := by
  have hposition := h.mPosition
  have hlength := h.length_unread
  have hstorage := h.mStorage
  have hvalid := h.mValid
  have hread : (if r.mValid - r.mPosition < numBytes then r.mValid - r.mPosition else numBytes) =
      min numBytes (r.mValid - r.mPosition) := by
    rw [min_def]
    split <;> split <;> omega
  rw [FixedBlockReader.readFromStorage, hread]
  generalize hn : min numBytes (r.mValid - r.mPosition) = n
  refine ⟨⟨h.mSize, hstorage, ?_, hvalid⟩, ?_, ?_⟩
  · show r.mPosition + n ≤ r.mValid
    omega
  · rw [List.length_take, List.length_drop]
    omega
  · have hrest : r.mValid - (r.mPosition + n) = r.mValid - r.mPosition - n := by omega
    have hwhole : r.mValid - r.mPosition = n + (r.mValid - r.mPosition - n) := by omega
    rw [unread, unread, hrest, ← List.drop_drop]
    conv_lhs => rw [hwhole, List.take_add]

section
variable {σ : Type} {produce : σ → List UInt8 × σ} {process : FixedBlockProcessor σ}

/-- A processor that always fills the whole block. -/
structure Fills (produce : σ → List UInt8 × σ) (size : Nat) (process : FixedBlockProcessor σ) : Prop where
  eq : ∀ s, process size s = (((produce s).1, (size : Int)), (produce s).2)
  length : ∀ s, (produce s).1.length = size

/-- A read of `numBytes` with `bytesLeft` to go returns with the next bytes of the stream, and leaves less than a block
over. -/
structure Reads (produce : σ → List UInt8 × σ) (size numBytes bytesLeft : Nat) (buffer : List UInt8)
    (r : FixedBlockReader) (s : σ) (n : Nat) (bytes : List UInt8) (r' : FixedBlockReader) (s' : σ)
    (result : Option (Int × List UInt8 × FixedBlockReader × σ)) : Prop where
  result : result = some ((numBytes : Int), buffer ++ bytes, r', s')
  inv : Inv size r'
  unread : r'.unread.length < size
  length : bytes.length = bytesLeft
  takes : Pull.Takes produce ⟨r.unread, s⟩ n bytes ⟨r'.unread, s'⟩

variable {numBytes bytesLeft : Nat} {buffer : List UInt8} {s : σ}
  {result : Option (Int × List UInt8 × FixedBlockReader × σ)}

/-- The turns after one that took `xs`. -/
theorem Reads.after {m n : Nat} {xs bytes : List UInt8} {r₁ r' : FixedBlockReader} {s₁ s' : σ}
    (htakes : Pull.Takes produce ⟨r.unread, s⟩ m xs ⟨r₁.unread, s₁⟩) (hle : xs.length ≤ bytesLeft)
    (h : Reads produce size numBytes (bytesLeft - xs.length) (buffer ++ xs) r₁ s₁ n bytes r' s' result) :
    Reads produce size numBytes bytesLeft buffer r s (m + n) (xs ++ bytes) r' s' result where
  result := h.result.trans (by rw [List.append_assoc])
  inv := h.inv
  unread := h.unread
  length := by rw [List.length_append, h.length, Nat.add_sub_of_le hle]
  takes := htakes.trans h.takes

theorem readLoop_spec (hsize : 0 < size) (hfills : Fills produce size process) (fuel bytesLeft : Nat)
    (buffer : List UInt8) (s : σ) (h : Inv size r)
    (hfuel : 2 * bytesLeft ≤ fuel + if r.mPosition < r.mValid then 1 else 0)
    (hunread : 0 < bytesLeft ∨ r.unread.length < size) :
    ∃ n bytes r' s', Reads produce size numBytes bytesLeft buffer r s n bytes r' s'
      (readLoop process numBytes fuel bytesLeft buffer r s) := by
  induction fuel generalizing bytesLeft buffer r s with
  | zero =>
    obtain rfl : bytesLeft = 0 := by split at hfuel <;> omega
    refine ⟨0, [], r, s, ?_, h, hunread.resolve_left (Nat.lt_irrefl 0), rfl, .refl _⟩
    rw [readLoop, if_pos rfl, List.append_nil]
  | succ fuel ih =>
    rw [readLoop]
    split
    · rename_i hzero
      subst hzero
      refine ⟨0, [], r, s, ?_, h, hunread.resolve_left (Nat.lt_irrefl 0), rfl, .refl _⟩
      rw [List.append_nil]
    · rename_i hleft
      split
      · rename_i hposition
        obtain ⟨hinv, hlength, hsplit⟩ := h.readFromStorage bytesLeft
        have hmade : Pull.Takes produce ⟨r.unread, s⟩ 0 (r.readFromStorage bytesLeft).1
            ⟨(r.readFromStorage bytesLeft).2.unread, s⟩ := hsplit ▸ .of_made s _ _
        have hlengths := congrArg List.length hsplit
        rw [List.length_append] at hlengths
        have hvalid := h.mValid
        have hstored := h.length_unread
        rw [if_pos hposition] at hfuel
        obtain ⟨n, bytes, r', s', hreads⟩ := ih (bytesLeft - (r.readFromStorage bytesLeft).1.length)
          (buffer ++ (r.readFromStorage bytesLeft).1) s hinv (by omega) (.inr (by omega))
        exact ⟨_, _, r', s', hreads.after hmade (by omega)⟩
      · rename_i hposition
        have hnil := h.unread_eq_nil hposition
        rw [if_neg hposition] at hfuel
        have hlength := hfills.length s
        have hcounts : ¬ (size : Int) < 0 := by omega
        have hwhole : (produce s).1.take size = (produce s).1 := List.take_of_length_le hlength.le
        simp only [h.mSize, hfills.eq, hcounts, if_false, Int.toNat_natCast, hwhole]
        split
        · -- a whole block goes into the buffer
          rename_i hblock
          have hthrough : Pull.Takes produce ⟨r.unread, s⟩ 1 (produce s).1 ⟨r.unread, (produce s).2⟩ :=
            hnil ▸ .through s
          obtain ⟨n, bytes, r', s', hreads⟩ := ih (bytesLeft - (produce s).1.length) (buffer ++ (produce s).1)
            (produce s).2 h (by split <;> omega) (.inr (by rw [hnil]; exact hsize))
          have hafter := hreads.after hthrough (by omega)
          rw [hlength] at hafter
          exact ⟨_, _, r', s', hafter⟩
        · -- a block goes into the storage, and the next turn takes what is needed of it
          rw [if_neg (by omega)]
          generalize hreloaded : FixedBlockReader.mk (produce s).1 size 0 size = r₁
          have hinv : Inv size r₁ := hreloaded ▸ ⟨rfl, hlength, Nat.zero_le _, Nat.le_refl _⟩
          have hmade : r₁.unread = (produce s).1 := hreloaded ▸ hwhole
          have hreload : Pull.Takes produce ⟨r.unread, s⟩ 1 [] ⟨r₁.unread, (produce s).2⟩ := by
            rw [hnil, hmade]
            exact .reload s
          have hposition : r₁.mPosition < r₁.mValid := hreloaded ▸ hsize
          obtain ⟨n, bytes, r', s', hreads⟩ := ih bytesLeft (buffer ++ []) (produce s).2 hinv
            (by rw [if_pos hposition]; omega) (.inl (by omega))
          have hafter := hreads.after hreload (Nat.zero_le _)
          rw [List.append_nil] at hafter
          exact ⟨_, _, r', s', hafter⟩

/-- A read of any size returns with so many bytes, the next ones of the stream. -/
theorem read_spec (hsize : 0 < size) (hfills : Fills produce size process) (h : Inv size r)
    (hunread : r.unread.length < size) (numBytes : Nat) (s : σ) :
    ∃ n bytes r' s', Reads produce size numBytes numBytes [] r s n bytes r' s' (r.read process numBytes s) :=
  readLoop_spec hsize hfills _ _ _ _ h (Nat.le_add_right _ _) (.inr hunread)

end

end FixedBlockReader

/-! ### Samples come back -/

theorem samples_nil : samples [] = [] := rfl

theorem samples_flatMap (xs : List Int16) (bytes : List UInt8) :
    samples (xs.flatMap sampleBytes ++ bytes) = xs ++ samples bytes := by
  induction xs with
  | nil => rfl
  | cons x xs ih =>
    have hlt := x.toUInt16.toNat_lt
    have hlow : (UInt8.ofNat (x.toUInt16.toNat % 256)).toNat = x.toUInt16.toNat % 256 := by
      rw [UInt8.toNat_ofNat', Nat.mod_mod]
    have hhigh : (UInt8.ofNat (x.toUInt16.toNat / 256)).toNat = x.toUInt16.toNat / 256 := by
      rw [UInt8.toNat_ofNat', Nat.mod_eq_of_lt (by omega)]
    rw [List.flatMap_cons, sampleBytes, List.append_assoc, List.cons_append, List.cons_append, List.nil_append,
      samples, ih, hlow, hhigh, Nat.mod_add_div, UInt16.ofNat_toNat]
    rfl

theorem samples_append {n : Nat} {a : List UInt8} (h : a.length = 2 * n) (b : List UInt8) :
    samples (a ++ b) = samples a ++ samples b := by
  induction n generalizing a with
  | zero => rw [List.eq_nil_of_length_eq_zero h]; rfl
  | succ n ih =>
    obtain _ | ⟨low, _ | ⟨high, a⟩⟩ := a
    · exact absurd h (by simp)
    · exact absurd h (by simp; omega)
    · rw [List.cons_append, List.cons_append, samples, samples, ih (by simpa [Nat.mul_succ] using h), List.cons_append]

theorem length_samples {n : Nat} {bytes : List UInt8} (h : bytes.length = 2 * n) : (samples bytes).length = n := by
  induction n generalizing bytes with
  | zero => rw [List.eq_nil_of_length_eq_zero h]; rfl
  | succ n ih =>
    obtain _ | ⟨low, _ | ⟨high, bytes⟩⟩ := bytes
    · exact absurd h (by simp)
    · exact absurd h (by simp; omega)
    · rw [samples, List.length_cons, ih (by simpa [Nat.mul_succ] using h)]

theorem toI16_toFloat (x : Int16) : toI16 (toFloat x) = x := by
  have hscaled : toFloat x * 32768 = (x.toInt : ℚ) := by
    rw [toFloat]
    ring
  have htruncate : Audio.truncate ((x.toInt : ℚ)) = x.toInt := by
    rw [Audio.truncate, Int.floor_intCast, Int.ceil_intCast, ite_self]
  rw [toI16, hscaled, htruncate, max_eq_right x.minValue_le_toInt, min_eq_right x.toInt_le, Int16.ofInt_toInt]

theorem map_toI16_toFloat (xs : List Int16) : (xs.map toFloat).map toI16 = xs := by
  rw [List.map_map]
  exact (List.map_congr_left fun x _ => toI16_toFloat x).trans (List.map_id xs)

/-! ### What the graph pulls -/

/-- The application fills its blocks and goes on. -/
structure Plays (channelCount framesPerCallback : Nat) (onAudioReady : DataCallback σ) : Prop where
  fills : ∀ app, (onAudioReady framesPerCallback app).1.1.length = framesPerCallback * channelCount
  continues : ∀ app, (onAudioReady framesPerCallback app).1.2 = .continue

/-- What it makes. -/
def block (framesPerCallback : Nat) (onAudioReady : DataCallback σ) (app : σ) : List Int16 × σ :=
  ((onAudioReady framesPerCallback app).1.1, (onAudioReady framesPerCallback app).2)

def blockBytes (framesPerCallback : Nat) (onAudioReady : DataCallback σ) (app : σ) : List UInt8 × σ :=
  ((block framesPerCallback onAudioReady app).1.flatMap sampleBytes, (block framesPerCallback onAudioReady app).2)

theorem length_sampleBytes (xs : List Int16) : (xs.flatMap sampleBytes).length = 2 * xs.length := by
  induction xs with
  | nil => rfl
  | cons x xs ih => rw [List.flatMap_cons, List.length_append, ih, List.length_cons, sampleBytes]; simp; omega

section
variable {channelCount framesPerCallback : Nat} {onAudioReady : DataCallback σ}

theorem fills_onProcessFixedBlock (hchannels : 0 < channelCount)
    (hplays : Plays channelCount framesPerCallback onAudioReady) :
    FixedBlockReader.Fills (blockBytes framesPerCallback onAudioReady) (channelCount * framesPerCallback * 2)
      (onProcessFixedBlock channelCount onAudioReady) where
  eq app := by
    have hframes : channelCount * framesPerCallback * 2 / bytesPerFrame channelCount = framesPerCallback := by
      rw [bytesPerFrame, Nat.mul_right_comm, Nat.mul_div_cancel_left _ (by omega)]
    simp only [onProcessFixedBlock, hframes, hplays.continues app, if_true]
    rfl
  length app := by
    rw [blockBytes, length_sampleBytes, block, hplays.fills]
    ring

namespace DataConversionFlowGraph

/-- What was made and has not got through yet. -/
def unread (g : DataConversionFlowGraph σ) : Pull σ UInt8 := ⟨g.mBlockReader.unread, g.app⟩

structure Inv (size : Nat) (g : DataConversionFlowGraph σ) : Prop where
  reader : g.mBlockReader.Inv size
  unread : g.mBlockReader.unread.length < size
  calls : (g.nodes .sourceCaller).mLastCallCount ≤ (g.nodes .sink).mLastCallCount

/-- The graph has gone on by `numFrames` frames, which are in `bytes`. -/
structure Pulls (channelCount framesPerCallback : Nat) (onAudioReady : DataCallback σ) (numFrames : Nat)
    (g : DataConversionFlowGraph σ) (n : Nat) (bytes : List UInt8) (g' : DataConversionFlowGraph σ) : Prop where
  inv : Inv (channelCount * framesPerCallback * 2) g'
  length : bytes.length = 2 * (numFrames * channelCount)
  takes : Pull.Takes (blockBytes framesPerCallback onAudioReady) g.unread n bytes g'.unread

variable {g : DataConversionFlowGraph σ}

theorem Pulls.refl (h : Inv (channelCount * framesPerCallback * 2) g) :
    Pulls channelCount framesPerCallback onAudioReady 0 g 0 [] g :=
  ⟨h, by rw [Nat.zero_mul]; rfl, .refl _⟩

theorem Pulls.trans {j k m n : Nat} {xs ys : List UInt8} {g₁ g₂ : DataConversionFlowGraph σ}
    (h : Pulls channelCount framesPerCallback onAudioReady j g m xs g₁)
    (h' : Pulls channelCount framesPerCallback onAudioReady k g₁ n ys g₂) :
    Pulls channelCount framesPerCallback onAudioReady (j + k) g (m + n) (xs ++ ys) g₂ where
  inv := h'.inv
  length := by
    rw [List.length_append, h.length, h'.length]
    ring
  takes := h.takes.trans h'.takes

theorem nodes_setNode (node : Node) (n : FlowGraphNode) : (g.setNode node n).nodes node = n :=
  Function.update_self ..

theorem nodes_setNode_of_ne {node other : Node} (n : FlowGraphNode) (hne : other ≠ node) :
    (g.setNode node n).nodes other = g.nodes other :=
  Function.update_of_ne hne ..

theorem sourceOnProcess_spec (hchannels : 0 < channelCount) (hframes : 0 < framesPerCallback)
    (hplays : Plays channelCount framesPerCallback onAudioReady)
    (h : Inv (channelCount * framesPerCallback * 2) g) (numFrames : Nat) :
    ∃ n bytes reader app, sourceOnProcess channelCount onAudioReady numFrames g =
        some ((numFrames : Int), { g with mBlockReader := reader, app, output := (samples bytes).map toFloat }) ∧
      Pulls channelCount framesPerCallback onAudioReady numFrames g n bytes { g with
        mBlockReader := reader, app, output := (samples bytes).map toFloat } := by
  have hsize : 0 < channelCount * framesPerCallback * 2 := by positivity
  obtain ⟨n, bytes, reader, app, hread⟩ := FixedBlockReader.read_spec hsize
    (fills_onProcessFixedBlock hchannels hplays) h.reader h.unread (bytesPerFrame channelCount * numFrames) g.app
  have hlength : bytes.length = 2 * (numFrames * channelCount) := by
    rw [hread.length, bytesPerFrame]
    ring
  have hframesRead : ((bytesPerFrame channelCount * numFrames : Nat) : Int).tdiv (bytesPerFrame channelCount) =
      numFrames := by
    rw [Nat.cast_mul]
    exact Int.mul_tdiv_cancel_left _ (by rw [bytesPerFrame]; omega)
  have hsamples : (samples bytes).take ((numFrames : Int) * channelCount).toNat = samples bytes := by
    rw [← Nat.cast_mul, Int.toNat_natCast]
    exact List.take_of_length_le (length_samples hlength).le
  refine ⟨n, bytes, reader, app, ?_, ⟨hread.inv, hread.unread, h.calls⟩, hlength, hread.takes⟩
  rw [sourceOnProcess, Int.toNat_natCast, hread.result]
  simp only [Option.bind_eq_bind, Option.bind_some, hframesRead, hsamples, List.nil_append]

theorem outputPullData_spec (hchannels : 0 < channelCount) (hframes : 0 < framesPerCallback)
    (hplays : Plays channelCount framesPerCallback onAudioReady)
    (h : Inv (channelCount * framesPerCallback * 2) g) {callCount : Int} {numFrames : Nat} (hpos : 0 < numFrames)
    (hcall : (g.nodes .sourceCaller).mLastCallCount < callCount)
    (hsink : (g.nodes .sink).mLastCallCount = callCount) :
    ∃ n bytes g', outputPullData channelCount onAudioReady callCount numFrames g =
        some (((min 8 numFrames : Nat) : Int), g') ∧
      g'.output = (samples bytes).map toFloat ∧
      Pulls channelCount framesPerCallback onAudioReady (min 8 numFrames) g n bytes g' := by
  have hroom : min kDefaultBufferSize (numFrames : Int) = ((min 8 numFrames : Nat) : Int) := by
    rw [Nat.cast_min]
    rfl
  have hturn : (0 : Int) < ((min 8 numFrames : Nat) : Int) := by omega
  generalize hcalled : g.setNode .sourceCaller { g.nodes .sourceCaller with mLastCallCount := callCount } = g₁
  have hinv : Inv (channelCount * framesPerCallback * 2) g₁ := by
    subst hcalled
    refine ⟨h.reader, h.unread, ?_⟩
    rw [nodes_setNode, nodes_setNode_of_ne _ (by decide), hsink]
  obtain ⟨n, bytes, reader, app, hprocess, hpulls⟩ :=
    sourceOnProcess_spec hchannels hframes hplays hinv (min 8 numFrames)
  have hstart : g₁.unread = g.unread := hcalled ▸ rfl
  rw [outputPullData, hroom, nodePullData, if_pos hcall, hcalled]
  simp only [Option.bind_eq_bind, Option.bind_some, if_pos hturn, hprocess]
  refine ⟨n, bytes, _, rfl, rfl, ⟨hpulls.inv.reader, hpulls.inv.unread, ?_⟩, hpulls.length, hstart ▸ hpulls.takes⟩
  rw [nodes_setNode, nodes_setNode_of_ne _ (by decide)]
  exact hinv.calls

/-- One turn of the graph: as many frames as there is room for in the port. -/
theorem sinkPullData_spec (hchannels : 0 < channelCount) (hframes : 0 < framesPerCallback)
    (hplays : Plays channelCount framesPerCallback onAudioReady)
    (h : Inv (channelCount * framesPerCallback * 2) g) {numFrames : Nat} (hpos : 0 < numFrames) :
    ∃ n bytes g', sinkPullData channelCount onAudioReady numFrames g = some (((min 8 numFrames : Nat) : Int), g') ∧
      g'.output = (samples bytes).map toFloat ∧
      Pulls channelCount framesPerCallback onAudioReady (min 8 numFrames) g n bytes g' := by
  have hcalls := h.calls
  generalize hcalled : g.setNode .sink { g.nodes .sink with mLastCallCount := (g.nodes .sink).mLastCallCount + 1 } = g₁
  have hsource : (g₁.nodes .sourceCaller).mLastCallCount < (g.nodes .sink).mLastCallCount + 1 := by
    subst hcalled
    rw [nodes_setNode_of_ne _ (by decide)]
    omega
  have hsink : (g₁.nodes .sink).mLastCallCount = (g.nodes .sink).mLastCallCount + 1 := by
    rw [← hcalled, nodes_setNode]
  have hinv : Inv (channelCount * framesPerCallback * 2) g₁ :=
    ⟨hcalled ▸ h.reader, hcalled ▸ h.unread, hsink ▸ hsource.le⟩
  obtain ⟨n, bytes, g', hpull, houtput, hpulls⟩ :=
    outputPullData_spec hchannels hframes hplays hinv hpos hsource hsink
  have hstart : g₁.unread = g.unread := hcalled ▸ rfl
  rw [sinkPullData, nodePullData, if_pos (by omega), hcalled]
  simp only [Option.bind_eq_bind, Option.bind_some, hpull, ite_self]
  refine ⟨n, bytes, _, rfl, houtput, ⟨hpulls.inv.reader, hpulls.inv.unread, ?_⟩, hpulls.length,
    hstart ▸ hpulls.takes⟩
  rw [nodes_setNode, nodes_setNode_of_ne _ (by decide)]
  exact hpulls.inv.calls

theorem readLoop_zero (fuel : Nat) (data : List Int16) (g : DataConversionFlowGraph σ) :
    readLoop channelCount onAudioReady fuel 0 data g = some (0, data, g) := by
  cases fuel <;> rw [readLoop, if_pos (Int.le_refl 0)]

/-- The sink fills its buffer, with the samples that the application made. -/
theorem readLoop_spec (hchannels : 0 < channelCount) (hframes : 0 < framesPerCallback)
    (hplays : Plays channelCount framesPerCallback onAudioReady) (fuel framesLeft : Nat) (data : List Int16)
    (g : DataConversionFlowGraph σ) (h : Inv (channelCount * framesPerCallback * 2) g) (hfuel : framesLeft ≤ fuel) :
    ∃ n bytes g', readLoop channelCount onAudioReady fuel framesLeft data g = some (0, data ++ samples bytes, g') ∧
      Pulls channelCount framesPerCallback onAudioReady framesLeft g n bytes g' := by
  induction fuel generalizing framesLeft data g with
  | zero =>
    obtain rfl := Nat.eq_zero_of_le_zero hfuel
    exact ⟨0, [], g, by rw [Nat.cast_zero, readLoop_zero, samples_nil, List.append_nil], .refl h⟩
  | succ fuel ih =>
    rcases Nat.eq_zero_or_pos framesLeft with rfl | hpos
    · exact ⟨0, [], g, by rw [Nat.cast_zero, readLoop_zero, samples_nil, List.append_nil], .refl h⟩
    · obtain ⟨m, xs, g₁, hpull, houtput, hpulls⟩ := sinkPullData_spec hchannels hframes hplays h hpos
      have hturn : ¬ ((min 8 framesLeft : Nat) : Int) ≤ 0 := by omega
      have hleft : ¬ (framesLeft : Int) ≤ 0 := by omega
      have hrest : (framesLeft : Int) - (min 8 framesLeft : Nat) = ((framesLeft - min 8 framesLeft : Nat) : Int) :=
        (Nat.cast_sub (min_le_right _ _)).symm
      have hsamples : (g₁.output.take (((min 8 framesLeft : Nat) : Int) * channelCount).toNat).map toI16 =
          samples xs := by
        rw [houtput, ← Nat.cast_mul, Int.toNat_natCast, List.take_of_length_le, map_toI16_toFloat]
        rw [List.length_map, length_samples hpulls.length]
      obtain ⟨n, ys, g₂, hloop, hpulls'⟩ :=
        ih (framesLeft - min 8 framesLeft) (data ++ samples xs) g₁ hpulls.inv (by omega)
      have htotal : min 8 framesLeft + (framesLeft - min 8 framesLeft) = framesLeft := by omega
      refine ⟨m + n, xs ++ ys, g₂, ?_, htotal ▸ hpulls.trans hpulls'⟩
      rw [readLoop, if_neg hleft]
      simp only [Option.bind_eq_bind, hpull, Option.bind_some, if_neg hturn, hrest, hsamples, hloop,
        samples_append hpulls.length, List.append_assoc]

end DataConversionFlowGraph

/-! ### What reaches the device -/

open DataConversionFlowGraph

/-- A callback of the device leaves its buffer full. -/
theorem step_spec (hchannels : 0 < channelCount) (hframes : 0 < framesPerCallback)
    (hplays : Plays channelCount framesPerCallback onAudioReady) {s : State σ} (henabled : s.mDataCallbackEnabled)
    (h : Inv (channelCount * framesPerCallback * 2) s.mFlowGraph) (numFrames : Nat) :
    ∃ n bytes t, step channelCount onAudioReady s numFrames = some (t, [samples bytes]) ∧ t.mDataCallbackEnabled ∧
      Pulls channelCount framesPerCallback onAudioReady numFrames s.mFlowGraph n bytes t.mFlowGraph := by
  obtain ⟨n, bytes, g, hloop, hpulls⟩ :=
    readLoop_spec hchannels hframes hplays numFrames numFrames [] s.mFlowGraph h (Nat.le_refl _)
  refine ⟨n, bytes, { s with mFlowGraph := g, mDataCallbackEnabled := true }, ?_, rfl, hpulls⟩
  simp [step, henabled, filterOnAudioReady, DataConversionFlowGraph.read, hloop]

theorem leads_requests (hchannels : 0 < channelCount) (hframes : 0 < framesPerCallback)
    (hplays : Plays channelCount framesPerCallback onAudioReady) {s : State σ} (henabled : s.mDataCallbackEnabled)
    (h : Inv (channelCount * framesPerCallback * 2) s.mFlowGraph) (requests : List Nat) :
    ∃ n bytes t es, Step.Leads (step channelCount onAudioReady) s requests t es ∧ es.flatten = samples bytes ∧
      es.map List.length = requests.map (· * channelCount) ∧
      Pulls channelCount framesPerCallback onAudioReady requests.sum s.mFlowGraph n bytes t.mFlowGraph := by
  induction requests generalizing s with
  | nil => exact ⟨0, [], s, [], Step.leads_nil s, rfl, rfl, .refl h⟩
  | cons numFrames requests ih =>
    obtain ⟨m, xs, s₁, hstep, henabled₁, hpulls⟩ := step_spec hchannels hframes hplays henabled h numFrames
    obtain ⟨n, ys, t, es, hleads, hflatten, hlengths, hpulls'⟩ := ih henabled₁ hpulls.inv
    refine ⟨m + n, xs ++ ys, t, _, hleads.cons hstep, ?_, ?_, ?_⟩
    · rw [List.singleton_append, List.flatten_cons, hflatten, samples_append hpulls.length]
    · rw [List.singleton_append, List.map_cons, hlengths, length_samples hpulls.length, List.map_cons]
    · rw [List.sum_cons]
      exact hpulls.trans hpulls'

theorem inv_configure (hchannels : 0 < channelCount) (hframes : 0 < framesPerCallback) (app : σ) :
    Inv (channelCount * framesPerCallback * 2) (configure channelCount framesPerCallback app).mFlowGraph :=
  have hsize : 0 < channelCount * framesPerCallback * 2 := by positivity
  ⟨FixedBlockReader.inv_open _, (FixedBlockReader.inv_open _).length_unread.trans_lt hsize, Int.le_refl _⟩

/-- The blocks that so many frames come from, and the application after them. -/
def blocksFor (framesPerCallback : Nat) (onAudioReady : DataCallback σ) (numFrames : Nat) (app : σ) : List Int16 × σ :=
  Pull.blocks (block framesPerCallback onAudioReady) ((numFrames + (framesPerCallback - 1)) / framesPerCallback) app

/-- What has come out of a new graph: the first frames of as few blocks as hold them. -/
theorem DataConversionFlowGraph.Pulls.configured {numFrames n : Nat} {bytes : List UInt8} {app : σ}
    {g : DataConversionFlowGraph σ} (hchannels : 0 < channelCount)
    (hplays : Plays channelCount framesPerCallback onAudioReady)
    (h : Pulls channelCount framesPerCallback onAudioReady numFrames
      (configure channelCount framesPerCallback app).mFlowGraph n bytes g) :
    samples bytes = (blocksFor framesPerCallback onAudioReady numFrames app).1.take (numFrames * channelCount) ∧
      g.app = (blocksFor framesPerCallback onAudioReady numFrames app).2 := by
  have hmade : (configure channelCount framesPerCallback app).mFlowGraph.unread.made = [] := rfl
  have hcount : n = (numFrames + (framesPerCallback - 1)) / framesPerCallback := by
    have hlength := h.takes.length (fills_onProcessFixedBlock hchannels hplays).length
    have hunread : g.unread.made.length < channelCount * framesPerCallback * 2 := h.inv.unread
    have hproduct : n * (channelCount * framesPerCallback * 2) = 2 * (n * framesPerCallback * channelCount) := by ring
    have hblock : channelCount * framesPerCallback * 2 = 2 * (framesPerCallback * channelCount) := by ring
    rw [hmade, List.length_nil, h.length] at hlength
    have hle : numFrames ≤ n * framesPerCallback := Nat.le_of_mul_le_mul_right (by omega) hchannels
    have hlt : n * framesPerCallback < numFrames + framesPerCallback := by
      refine Nat.lt_of_mul_lt_mul_right (a := channelCount) ?_
      rw [Nat.add_mul]
      omega
    refine (Nat.div_eq_of_lt_le ?_ ?_).symm
    · omega
    · rw [Nat.succ_mul]
      omega
  have hitems := h.takes.items
  rw [hmade, List.nil_append] at hitems
  have hblocks := Pull.blocks_flatMap (block framesPerCallback onAudioReady) sampleBytes n app
  have hsamples : (Pull.blocks (block framesPerCallback onAudioReady) n app).1 =
      samples bytes ++ samples g.unread.made := by
    rw [← samples_append h.length, ← hitems, ← List.append_nil (Pull.blocks _ n app).1, ← samples_nil,
      ← samples_flatMap, List.append_nil]
    exact congrArg (fun p => samples p.1) hblocks.symm
  rw [blocksFor, ← hcount, hsamples, List.take_left' (length_samples h.length)]
  exact ⟨rfl, h.takes.producer.trans (congrArg Prod.snd hblocks)⟩

/-- The device is given the samples of the application, one after the other and bit for bit, in buffers that are full,
whatever sizes it asks for. The application is called for whole blocks, when the next one is needed. The numbers are
unbounded here; the `int32_t`s of the source hold them for blocks of less than 2 GiB, that is with
`channelCount * framesPerCallback * 2 < 2 ^ 31`. -/
theorem onAudioReady_stream (hchannels : 0 < channelCount) (hframes : 0 < framesPerCallback)
    (hplays : Plays channelCount framesPerCallback onAudioReady) (app : σ) (requests : List Nat) :
    ∃ t es, Step.Leads (step channelCount onAudioReady) (configure channelCount framesPerCallback app) requests t es ∧
      es.map List.length = requests.map (· * channelCount) ∧
      es.flatten = (blocksFor framesPerCallback onAudioReady requests.sum app).1.take (requests.sum * channelCount) ∧
      t.mFlowGraph.app = (blocksFor framesPerCallback onAudioReady requests.sum app).2 := by
  obtain ⟨n, bytes, t, es, hleads, hflatten, hlengths, hpulls⟩ :=
    leads_requests hchannels hframes hplays rfl (inv_configure hchannels hframes app) requests
  obtain ⟨hsamples, happ⟩ := hpulls.configured hchannels hplays
  exact ⟨t, es, hleads, hlengths, hflatten.trans hsamples, happ⟩

end

/-- Blocks of three frames, numbered, of which the device asks for two and then for five. -/
theorem onAudioReady_stream_numbered :
    ∃ t es, Step.Leads (step 2 fun n s => ((List.replicate (n * 2) (Int16.ofNat s), .continue), s + 1))
        (configure 2 3 0) [2, 5] t es ∧
      es.map List.length = [2, 5].map (· * 2) ∧
      es.flatten = (blocksFor 3 (fun n s => ((List.replicate (n * 2) (Int16.ofNat s), .continue), s + 1))
        [2, 5].sum 0).1.take ([2, 5].sum * 2) ∧
      t.mFlowGraph.app = (blocksFor 3 (fun n s => ((List.replicate (n * 2) (Int16.ofNat s), .continue), s + 1))
        [2, 5].sum 0).2 :=
  onAudioReady_stream (by decide) (by decide) ⟨fun _ => List.length_replicate, fun _ => rfl⟩ 0 [2, 5]

end SweetHome.FilterStream
