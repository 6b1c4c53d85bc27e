import Stoquant.Cuda.Round
import Stoquant.Cuda.Scan
import Stoquant.Cuda.Sums
import Stoquant.Ieee.Nearest

/-!
# Coverage of the grid-stride loops

Every kernel gives each of its work items to one thread, warp or block, whatever the
grid; the index expressions that the kernels compute in 64 bits are exact; and no code
is packed that was not written.
-/

namespace Stoquant

open Abort Ieee Loop Par

/-! ## 64-bit indices -/

/-- Addition of `uint64_t`. -/
def add64 (a b : ℕ) : ℕ := (a + b) % 2 ^ 64

/-- Multiplication of `uint64_t`. -/
def mul64 (a b : ℕ) : ℕ := a * b % 2 ^ 64

/-- The loop `for (i = first; i < bound; i += stride)` in 64-bit arithmetic, absent when it
has not ended after some iterations. -/
def strided64 (first stride bound : ℕ) : ℕ → Option (List ℕ)
  | 0 => none
  | fuel + 1 =>
      if first < bound then
        (strided64 (add64 first stride) stride bound fuel).map (first :: ·)
      else some []

theorem add64_eq {a b : ℕ} (small : a + b < 2 ^ 64) : add64 a b = a + b :=
  Nat.mod_eq_of_lt small

theorem mul64_eq {a b : ℕ} (small : a * b < 2 ^ 64) : mul64 a b = a * b :=
  Nat.mod_eq_of_lt small

/-- A loop whose bound leaves room for one stride never wraps. -/
theorem strided64_eq {stride bound : ℕ} (pos : 0 < stride) (room : bound + stride ≤ 2 ^ 64)
    (first : ℕ) {fuel : ℕ} (enough : bound - first < fuel) :
    strided64 first stride bound fuel = some (strided first stride bound) := by
  induction fuel generalizing first with
  | zero => exact absurd enough (Nat.not_lt_zero _)
  | succ fuel ih =>
      rw [strided64, strided]
      by_cases more : first < bound
      · have next : add64 first stride = first + stride := add64_eq (by omega)
        rw [if_pos more, if_pos ⟨more, pos⟩, next, ih (first + stride) (by omega)]
        rfl
      · rw [if_neg more, if_neg (fun both => more both.1)]

/-- The numbers of work items of the grid-stride loops: groups, values, packed bytes,
blocks, padded blocks and words of four values. -/
def loopBounds (count : ℕ) : List ℕ :=
  [ceilDiv count sqPhiloxWordsPerGroup, count, sqPayloadSize sqQ4Bits count,
    ceilDiv count sqCudaReductionThreads, 2 ^ paddedBits count, count / 4]

/-- The index expressions of the kernels have in 64-bit arithmetic the values that they
have without a bound. -/
structure IndicesExact (count grid : ℕ) : Prop where
  units : ∀ size > 0,
    add64 (count / size) (if count % size ≠ 0 then 1 else 0) = ceilDiv count size
  thread : ∀ dim ≤ sqCudaMaxBlockSize, ∀ block < grid, ∀ thread < dim,
    mul64 grid dim = grid * dim ∧ mul64 block dim = block * dim ∧
      add64 (block * dim) thread = block * dim + thread
  loop : ∀ dim ≤ sqCudaMaxBlockSize, 0 < dim → ∀ limit ∈ loopBounds count, ∀ bound ≤ limit,
    ∀ first, ∀ fuel > bound,
      strided64 first (grid * dim) bound fuel = some (strided first (grid * dim) bound)
  groupWord : ∀ group < ceilDiv count sqPhiloxWordsPerGroup, ∀ lane < sqPhiloxWordsPerGroup,
    add64 (mul64 group sqPhiloxWordsPerGroup) lane = sqPhiloxGroupWord group lane
  nibbles : ∀ byteIndex < sqPayloadSize sqQ4Bits count,
    mul64 byteIndex 2 = byteIndex * 2 ∧ add64 (byteIndex * 2) 1 = byteIndex * 2 + 1
  blockValue : ∀ block < ceilDiv count sqCudaReductionThreads,
    ∀ lane < sqCudaReductionThreads,
      add64 (mul64 block sqCudaReductionThreads) lane = block * sqCudaReductionThreads + lane
  leaf : ∀ chunk < ceilDiv count sqCudaReductionThreads, ∀ lane < sqCudaWarp,
    ∀ k ≤ sqCudaK1LeavesPerLane,
      add64 (add64 (mul64 chunk sqCudaReductionThreads) (mul64 lane sqCudaK1LeavesPerLane)) k =
        chunk * sqCudaReductionThreads + lane * sqCudaK1LeavesPerLane + k
  tail : ∀ first < count % 4, add64 (mul64 (count / 4) 4) first = count / 4 * 4 + first
  pair : ∀ i, 2 * i < 2 ^ paddedBits count →
    mul64 2 i = 2 * i ∧ add64 (2 * i) 1 = 2 * i + 1
  segment : ∀ span segment k, (segment + 1) * span ≤ 2 ^ paddedBits count → k < span →
    add64 (mul64 segment span) k = segment * span + k

/-- A product and a sum that end below `2 ^ 64` are exact. -/
theorem addMul64_eq {a b c : ℕ} (small : a * b + c < 2 ^ 64) :
    add64 (mul64 a b) c = a * b + c := by
  rw [mul64_eq ((Nat.le_add_right _ c).trans_lt small), add64_eq small]

/-- For counts whose values fit in memory no index expression wraps, whatever the grid. -/
theorem indicesExact {count : ℕ} (bound : count ≤ sizeMax / 4) {grid : ℕ} (pos : 0 < grid)
    (small : grid < 2 ^ 32) : IndicesExact count grid := by
  have countSmall : count < 2 ^ 62 := by
    unfold sizeMax at bound
    omega
  have blocks : ceilDiv count sqCudaReductionThreads ≤ 2 ^ 56 := by
    rw [ceilDiv_eq_blockCount]
    apply blockCount_le
    unfold uint64Max
    omega
  have padded : 2 ^ paddedBits count ≤ 2 ^ 56 := by
    apply Nat.pow_le_pow_right (by norm_num)
    rw [paddedBits, Nat.clog_le_iff_le_pow (by norm_num), ← ceilDiv_eq_blockCount]
    exact blocks
  have groups : ceilDiv count sqPhiloxWordsPerGroup ≤ 2 ^ 62 := by
    unfold ceilDiv sqPhiloxWordsPerGroup
    split <;> omega
  have bytes : sqPayloadSize sqQ4Bits count ≤ 2 ^ 62 := by
    unfold sqPayloadSize
    split <;> omega
  have strides : ∀ dim ≤ sqCudaMaxBlockSize, ∀ block ≤ grid, block * dim ≤ 2 ^ 42 :=
    fun dim dimSmall block blockSmall =>
      (Nat.mul_le_mul (blockSmall.trans small.le) dimSmall).trans (by decide)
  have limits : ∀ limit ∈ loopBounds count, limit ≤ 2 ^ 62 := by
    unfold loopBounds
    simp only [List.forall_mem_cons]
    exact ⟨groups, countSmall.le, bytes, blocks.trans (by norm_num),
      padded.trans (by norm_num), by omega, by simp⟩
  constructor
  · intro size sizePos
    have quotient := Nat.div_le_self count size
    apply add64_eq
    split <;> omega
  · intro dim dimSmall block below thread threadBelow
    have stride := strides dim dimSmall grid le_rfl
    have own := strides dim dimSmall block below.le
    have threadSmall : thread < 2 ^ 10 := threadBelow.trans_le dimSmall
    exact ⟨mul64_eq (by omega), mul64_eq (by omega), add64_eq (by omega)⟩
  · intro dim dimSmall dimPos limit member bound le first fuel enough
    have stride := strides dim dimSmall grid le_rfl
    have limitSmall := limits limit member
    apply strided64_eq (Nat.mul_pos pos dimPos)
    · omega
    · omega
  · intro group below lane laneBelow
    apply addMul64_eq
    unfold sqPhiloxWordsPerGroup at *
    omega
  · intro byteIndex below
    exact ⟨mul64_eq (by omega), add64_eq (by omega)⟩
  · intro block below lane laneBelow
    apply addMul64_eq
    unfold sqCudaReductionThreads at *
    omega
  · intro chunk below lane laneBelow k kSmall
    have inside : chunk * 256 < count := (lt_ceilDiv_iff (by decide)).mp below
    have laneSmall : lane * 8 ≤ 31 * 8 := Nat.mul_le_mul_right 8 (Nat.le_of_lt_succ laneBelow)
    have leaf : chunk * 256 + lane * 8 + k < 2 ^ 64 :=
      calc chunk * 256 + lane * 8 + k
        _ < 2 ^ 62 + 31 * 8 + 8 :=
          add_lt_add_of_lt_of_le (add_lt_add_of_lt_of_le (inside.trans countSmall) laneSmall) kSmall
        _ ≤ 2 ^ 64 := by norm_num
    have start : chunk * 256 + lane * 8 < 2 ^ 64 := (Nat.le_add_right _ k).trans_lt leaf
    have laneOffset : mul64 lane 8 = lane * 8 := mul64_eq ((Nat.le_add_left _ _).trans_lt start)
    unfold sqCudaReductionThreads sqCudaK1LeavesPerLane
    rw [laneOffset, addMul64_eq start, add64_eq leaf]
  · intro first below
    apply addMul64_eq
    omega
  · intro i below
    exact ⟨mul64_eq (by omega), add64_eq (by omega)⟩
  · intro span segment k run below
    apply addMul64_eq
    rw [Nat.succ_mul] at run
    omega

/-! ## The scale kernels -/

/-- A launch of K1 gives each of its blocks, runs or pairs to one thread, warp or block, which
stores the result once; and each value to one scan. -/
def K1Kernel.Covers (count : ℕ) : K1Kernel → Prop
  | .maxBlocks grid blocks =>
      blocks = ceilDiv count sqCudaReductionThreads ∧
        SharedOut (maxBlocksKernel grid count blocks) blocks (maxBlock count) ∧
        (∀ b, ∀ a ∈ partialsOf b, (maxBlocksKernel grid count blocks).Performs (.store a)
          (if b < blocks then 1 else 0)) ∧
        ∀ i, (maxBlocksKernel grid count blocks).Performs (.load (.value i))
          (if i < count then 1 else 0)
  | .maxVector grid =>
      (∀ b, ∀ a ∈ partialsOf b, (maxVectorKernel grid count).Performs (.store a)
        (if b < grid then 1 else 0)) ∧
      ∀ i, (maxVectorKernel grid count).Performs (.load (.value i)) (if i < count then 1 else 0)
  | .sumBlocks grid blocks padded =>
      blocks = ceilDiv count sqCudaReductionThreads ∧ padded = 2 ^ paddedBits count ∧
        ∀ (α : Type) (op : α → α → α) (zero : α) (term : ℕ → α) (skip : Bool),
          let kernel := sumBlocksKernel op zero term skip count grid blocks padded
          SharedOut kernel padded (sumBlock op zero term skip count blocks) ∧
            ∀ i, kernel.Performs (.store (.sums .a i)) (if i < padded then 1 else 0)
  | .sumWarps grid blocks padded =>
      blocks = ceilDiv count sqCudaReductionThreads ∧ padded = 2 ^ paddedBits count ∧
        ∀ (α : Type) (op : α → α → α) (zero : α) (term : ℕ → α) (skip : Bool),
          let kernel := sumWarpsKernel op zero term skip count grid blocks padded
          SharedOut kernel padded (sumWarp op zero term skip count blocks) ∧
            ∀ i, kernel.Performs (.store (.sums .a i)) (if i < padded then 1 else 0)
  | .reducePairs grid input output outputCount =>
      ∀ (α : Type) (op : α → α → α),
        let kernel := reducePairsKernel op grid input output outputCount
        SharedOut kernel outputCount (fun _ => reducePair op input output) ∧
          ∀ i, kernel.Performs (.store (.sums output i)) (if i < outputCount then 1 else 0)
  | .reduceTree grid input output outputCount span =>
      ∀ (α : Type) (op : α → α → α),
        let kernel := reduceTreeKernel op grid input output outputCount span
        SharedOut kernel outputCount (reduceSegment op input output span) ∧
          ∀ i, kernel.Performs (.store (.sums output i)) (if i < outputCount then 1 else 0)
  | .reduceMax _ | .finishScale _ => True

theorem sharedOut_strided {Addr : Type} {Val : Addr → Type} {Event : Type} {n : ℕ}
    (pos : 0 < n) (bound : ℕ) (body : ℕ → ℕ → Task Val Event) :
    SharedOut (.team n (fun t => strided t n bound) body) bound body :=
  ⟨n, _, rfl, shares_strided pos bound⟩

theorem K1Kernel.Fits.covers {count : ℕ} {kernel : K1Kernel} (fits : kernel.Fits count) :
    kernel.Covers count := by
  cases kernel with
  | maxBlocks grid blocks =>
      obtain ⟨pos, rfl⟩ := fits
      rw [← ceilDiv_eq_blockCount]
      refine ⟨rfl, sharedOut_strided pos _ _, ?_, maxBlocksKernel_performs pos count⟩
      exact fun _ _ own => maxBlocksKernel_stores pos count _ own
  | maxVector grid =>
      refine ⟨?_, maxVectorKernel_performs fits.1 count⟩
      exact fun _ _ own => maxVectorKernel_stores grid count own
  | reduceMax partials => trivial
  | sumBlocks grid blocks padded =>
      obtain ⟨pos, rfl, rfl⟩ := fits
      refine ⟨(ceilDiv_eq_blockCount count).symm, rfl, ?_⟩
      intro α op zero term skip
      exact ⟨sharedOut_strided pos _ _, fun _ => sumBlocksKernel_stores pos⟩
  | sumWarps grid blocks padded =>
      obtain ⟨pos, rfl, rfl⟩ := fits
      refine ⟨(ceilDiv_eq_blockCount count).symm, rfl, ?_⟩
      intro α op zero term skip
      exact ⟨sharedOut_strided (Nat.mul_pos pos (by decide)) _ _,
        fun _ => sumWarpsKernel_stores pos⟩
  | reducePairs grid input output outputCount =>
      intro α op
      refine ⟨sharedOut_strided (Nat.mul_pos fits.1 (Nat.succ_pos 255)) _ _, ?_⟩
      exact fun _ => reducePairsKernel_stores fits.1
  | reduceTree grid input output outputCount span =>
      intro α op
      exact ⟨sharedOut_strided fits.1 _ _, fun _ => reduceTreeKernel_stores fits.1⟩
  | finishScale sum => trivial

/-- Without an error every launch of either variant of K1 covers its work. -/
def K1Covered (count : ℕ) (gridSize : ℤ) : Prop :=
  ∀ lastError : List K1Kernel → Option CudaError, (∀ launched, lastError launched = none) →
    ∀ (variant : K1Variant) (pointers : K1Pointers) (workspace : K1Workspace)
      (before : K1Counts),
      setK1WorkspaceGeometry (some before) count = (.ok, some workspace.counts) →
      K1Ready pointers workspace →
      ∃ launched,
        exec (launchK1 lastError gridSize variant pointers count (some workspace)) [] =
          (.ok (), launched) ∧
        ∀ kernel ∈ launched, kernel.Covers count

theorem k1Covered {count : ℕ} (bound : count ≤ uint64Max) {gridSize : ℤ}
    (geometry : validLaunchGeometry sqCudaReductionThreads gridSize = true) :
    K1Covered count gridSize := by
  intro lastError quiet variant pointers workspace before sized ready
  by_cases empty : count = 0
  · refine ⟨[], ?_, by simp⟩
    unfold launchK1
    rw [if_pos empty]
    rfl
  · obtain ⟨launched, final, ran, -, fits, -⟩ :=
      launchK1_run quiet empty bound geometry sized ready variant
    refine ⟨_, ran, List.forall_mem_append.mpr ⟨?_, ?_⟩⟩
    · exact fun kernel member => (fits kernel member).covers
    · exact List.forall_mem_singleton.mpr trivial

/-! ## Rounding and packing -/

/-- The launch geometry that the options admit makes a grid for any work. -/
theorem launchGrid_pos {work : ℕ} (workPos : 0 < work) {blockSize gridSize : ℤ}
    (geometry : validLaunchGeometry blockSize gridSize = true) :
    0 < launchGrid work blockSize gridSize * blockSize.toNat := by
  have valid := of_decide_eq_true geometry
  have blockPos : 0 < blockSize.toNat := by omega
  unfold launchGrid
  rw [if_neg (by omega)]
  exact Nat.mul_pos (grid_pos gridSize (sqCudaAutomaticGrid_pos workPos blockPos)) blockPos

/-- The packing kernel shares out the bytes of the payload and reads only codes of
elements. -/
theorem packKernel_covers {bitWidth : ℕ} (supported : Supported bitWidth) (count : ℕ)
    {grid blockSize : ℕ} (pos : 0 < grid * blockSize) :
    SharedOut (packKernel bitWidth count grid blockSize) (sqPayloadSize bitWidth count)
        (fun _ => packByte bitWidth count) ∧
      (packKernel bitWidth count grid blockSize).Within { a | ∃ i < count, a = .code i }
        (Set.range .payload) := by
  have inside : ∀ {bound thread index : ℕ}, index ∈ strided thread (grid * blockSize) bound →
      thread < grid * blockSize → index < bound := fun member below =>
    ((mem_strided_iff below).mp member).1
  unfold packKernel packByte
  rcases supported with rfl | rfl
  · rw [if_pos rfl, if_pos rfl]
    refine ⟨sharedOut_strided pos _ _, ?_⟩
    intro thread
    apply Task.within_forEach
    intro byteIndex member
    have below := inside member thread.isLt
    have first : byteIndex * 2 < count := by
      unfold sqPayloadSize at below
      rw [if_pos rfl] at below
      omega
    refine ⟨.inl ⟨_, first, rfl⟩, fun _ => ?_⟩
    dsimp only
    split
    · exact ⟨.inl ⟨_, ‹_›, rfl⟩, fun _ => ⟨⟨_, rfl⟩, trivial⟩⟩
    · exact ⟨⟨_, rfl⟩, trivial⟩
  · rw [if_neg (by decide), if_neg (by decide)]
    refine ⟨sharedOut_strided pos _ _, ?_⟩
    intro thread
    apply Task.within_forEach
    intro index member
    exact ⟨.inl ⟨_, inside member thread.isLt, rfl⟩, fun _ => ⟨⟨_, rfl⟩, trivial⟩⟩

section

variable [Arith Format.binary32] (bitWidth count : ℕ) (scale : F32) (prescribedWords : Bool)
  (stream : SqRngStream)

/-- The code of each element in a memory of inputs. -/
def codeOf (m : Mem CodeAddr.Val ValidationFlag) (i : ℕ) : Byte :=
  elementCode (signedLimit bitWidth) scale (m.cell (.value i))
    (roundWord prescribedWords stream m i)

/-- A rounding kernel and a packing kernel that cover their groups and bytes, load each value
and each code once and store each byte once.  Where the packing kernel is launched, behind the
check of the flags or for values that were checked before, it reads codes that the rounding
kernel stored, and only these. -/
structure CodesCovered (round pack : CodeTask) : Prop where
  groups : SharedOut round (ceilDiv count sqPhiloxWordsPerGroup)
    (fun _ => roundGroup bitWidth count scale prescribedWords stream)
  values : ∀ i, round.Performs (.load (.value i)) (if i < count then 1 else 0)
  bytes : SharedOut pack (sqPayloadSize bitWidth count) (fun _ => packByte bitWidth count)
  loads : ∀ i, pack.Performs (.load (.code i)) (if i < count then 1 else 0)
  stores : ∀ k, pack.Performs (.store (.payload k))
    (if k < sqPayloadSize bitWidth count then 1 else 0)
  reads : pack.Within { a | ∃ i < count, a = .code i } (Set.range .payload)
  codes : ∀ m mid : Mem CodeAddr.Val ValidationFlag, m.log = 0 → Task.Steps round m .done mid →
    (compressCheck scale mid.log = .ok ∨
      ∀ i < count, isfinite (m.cell (.value i) : F32) = true) →
    (∀ i < count, mid.cell (.code i) = codeOf bitWidth scale prescribedWords stream m i) ∧
    ∀ later, Task.Steps pack mid .done later → ∀ k < sqPayloadSize bitWidth count,
      later.cell (.payload k) =
        payloadByte bitWidth count (codeOf bitWidth scale prescribedWords stream m) k

variable {bitWidth} (supported : Supported bitWidth)

include supported

theorem codesCovered {grid packGrid blockSize : ℕ} (pos : 0 < grid * blockSize)
    (packPos : 0 < packGrid * blockSize) :
    CodesCovered bitWidth count scale prescribedWords stream
      (roundKernel bitWidth count scale prescribedWords stream grid blockSize)
      (packKernel bitWidth count packGrid blockSize) where
  groups := sharedOut_strided pos _ _
  values := fun _ => roundKernel_loads pos
  loads := fun _ => packKernel_loads supported packPos
  stores := fun _ => packKernel_stores supported packPos
  bytes := (packKernel_covers supported count packPos).1
  reads := (packKernel_covers supported count packPos).2
  codes := by
    intro m mid clear rounded checked
    have finite : ∀ i < count, isfinite (m.cell (.value i) : F32) = true := by
      rcases checked with passed | finite
      · have quiet : .nonfinite ∉ mid.log := by
          intro raised
          rw [compressCheck, if_pos raised] at passed
          exact SqStatus.noConfusion passed
        exact fun i inside => roundKernel_finite pos rounded clear quiet inside
      · exact finite
    have stored : ∀ i < count,
        mid.cell (.code i) = codeOf bitWidth scale prescribedWords stream m i :=
      fun i inside => roundKernel_code pos rounded inside (finite i inside)
    refine ⟨stored, ?_⟩
    intro later packed k below
    rw [packKernel_payload packPos supported packed k below]
    exact payloadByte_congr supported below stored

/-- Whatever the geometry, the launches of K2 and K3 cover their groups and bytes. -/
theorem launches_cover (nonempty : count ≠ 0) {blockSize gridSize : ℤ}
    (geometry : validLaunchGeometry blockSize gridSize = true) :
    ∃ round pack,
      sqCudaLaunchK2 bitWidth count scale prescribedWords stream true blockSize gridSize =
        .ok (some round) ∧
      sqCudaLaunchK3 bitWidth count true blockSize gridSize = .ok (some pack) ∧
      CodesCovered bitWidth count scale prescribedWords stream round pack := by
  have countPos := Nat.pos_of_ne_zero nonempty
  have groups : 0 < ceilDiv count sqPhiloxWordsPerGroup := ceilDiv_pos countPos (by decide)
  have bytes : 0 < sqPayloadSize bitWidth count := by
    unfold sqPayloadSize
    split <;> omega
  have roundPos := launchGrid_pos groups geometry
  have packPos := launchGrid_pos bytes geometry
  have noError : ∀ {work : ℕ}, 0 < launchGrid work blockSize gridSize * blockSize.toNat →
      ¬ (true = false ∨ launchGrid work blockSize gridSize = 0) := by
    rintro work product (⟨⟨⟩⟩ | none)
    rw [none, Nat.zero_mul] at product
    exact absurd product (Nat.lt_irrefl 0)
  have valid : ¬ validLaunchGeometry blockSize gridSize = false := by
    rw [geometry]
    exact Bool.noConfusion
  refine ⟨_, _, ?_, ?_, codesCovered count scale prescribedWords stream supported roundPos packPos⟩
  · unfold sqCudaLaunchK2
    dsimp only
    rw [if_neg supported.ne, if_neg nonempty, if_neg valid, if_neg (noError roundPos)]
  · unfold sqCudaLaunchK3
    dsimp only
    rw [if_neg supported.ne, if_neg nonempty, if_neg valid, if_neg (noError packPos)]

/-- Every kernel covers its work once, whatever the count and the geometry: nothing is
launched for an empty input; each group, byte and block is one thread's, warp's or
block's, and its result is stored once; each value is scanned once; each code is stored
before it is packed; and no 64-bit index wraps. -/
theorem kernels_cover (bound : count ≤ sizeMax / 4) {blockSize gridSize : ℤ}
    (geometry : validLaunchGeometry blockSize gridSize = true) :
    (count = 0 →
      sqCudaLaunchK2 bitWidth count scale prescribedWords stream true blockSize gridSize =
        .ok none ∧
      sqCudaLaunchK3 bitWidth count true blockSize gridSize = .ok none) ∧
    (count ≠ 0 → ∃ round pack,
      sqCudaLaunchK2 bitWidth count scale prescribedWords stream true blockSize gridSize =
        .ok (some round) ∧
      sqCudaLaunchK3 bitWidth count true blockSize gridSize = .ok (some pack) ∧
      CodesCovered bitWidth count scale prescribedWords stream round pack) ∧
    K1Covered count gridSize ∧
    ∀ grid, 0 < grid → grid < 2 ^ 32 → IndicesExact count grid := by
  refine ⟨?_, ?_, ?_, fun grid => indicesExact bound⟩
  · intro empty
    unfold sqCudaLaunchK2 sqCudaLaunchK3
    rw [if_neg supported.ne, if_neg supported.ne, if_pos empty, if_pos empty]
    exact ⟨rfl, rfl⟩
  · intro nonempty
    exact launches_cover count scale prescribedWords stream supported nonempty geometry
  · have valid := of_decide_eq_true geometry
    apply k1Covered (bound.trans (by decide))
    exact decide_eq_true ⟨by decide, by decide, valid.2.2⟩

end

theorem kernels_cover_ofFive :
    letI := nearestEven Format.binary32
    (5 = 0 →
      sqCudaLaunchK2 4 5 zeroF false ⟨1#64, 2#32, 3#32⟩ true 32 2 = .ok none ∧
      sqCudaLaunchK3 4 5 true 32 2 = .ok none) ∧
    (5 ≠ 0 → ∃ round pack,
      sqCudaLaunchK2 4 5 zeroF false ⟨1#64, 2#32, 3#32⟩ true 32 2 = .ok (some round) ∧
      sqCudaLaunchK3 4 5 true 32 2 = .ok (some pack) ∧
      CodesCovered 4 5 zeroF false ⟨1#64, 2#32, 3#32⟩ round pack) ∧
    K1Covered 5 2 ∧
    ∀ grid, 0 < grid → grid < 2 ^ 32 → IndicesExact 5 grid := by
  let _ := nearestEven Format.binary32
  exact kernels_cover 5 zeroF false ⟨1#64, 2#32, 3#32⟩ (.inl rfl) (by decide) (by decide)

end Stoquant
