import Camerasp.Jpeg.ScanLine

/-!
# Encoding an image twice

`write_JPEG_dat` takes its image by reference to const and `get_scan_line` is a const member, but
the buffer is mutable and the exchange of `get_scan_line` stays in it: the second call hands the
rows with their pixels exchanged back.

Results:
* `repeatable_iff_unchanged`: two calls agree exactly when the first leaves the buffer as it was.
* `writeJPEGDat_repeatable`: that is so exactly when every access stays in the buffer and every
  pixel that `get_scan_line` visits has equal first and third bytes.
-/

namespace Camerasp.Jpeg

open Camerasp.Lib (upTo upTo_eq upTo_invariant)
open Camerasp.Timer (ImgInfo Buffer)

/-- What libjpeg makes its bytes from. -/
structure Source where
  imageWidth : UInt32
  imageHeight : UInt32
  quality : UInt32
  lines : List Buffer

/-- A call of `write_JPEG_dat`: the vector returned, the rows handed, the image then. -/
structure Encoded where
  dat : Except Unit (List UInt8)
  handed : List Buffer
  img : ImgInfo

/-- `write_JPEG_dat` after its loop. -/
def encoded (compress : Source → List Emit) (img : ImgInfo) (s : Scan) : Encoded where
  dat := writeJPEGDat compress ⟨img.imageWidth, img.imageHeight, img.quality, s.handed⟩
  handed := s.handed
  img := { img with buffer := s.buffer }

/-- `write_JPEG_dat` with its loop. -/
def writeJPEGDatImg (compress : Source → List Emit) (img : ImgInfo) : Option Encoded :=
  (scanLines img).map (encoded compress img)

/-- Two successive calls on the image agree, and neither changes it. -/
def Repeatable (img : ImgInfo) : Prop :=
  ∀ compress : Source → List Emit, ∃ first second,
    writeJPEGDatImg compress img = some first ∧
    writeJPEGDatImg compress first.img = some second ∧
    second.handed = first.handed ∧ second.dat = first.dat ∧ first.img = img ∧ second.img = img

/-- Every row lies in the buffer, and every pixel visited has equal first and third bytes. -/
structure RedEqualsBlue (img : ImgInfo) : Prop where
  row : ∀ y < img.imageHeight.toNat,
    rowStart img y + 3 * img.imageWidth.toNat ≤ img.buffer.length
  pixel : ∀ y < img.imageHeight.toNat, ∀ j, 3 * j < img.rowStride.toNat →
    rowStart img y + 3 * j + 2 < img.buffer.length ∧
      img.buffer[rowStart img y + 3 * j]? = img.buffer[rowStart img y + 3 * j + 2]?

theorem repeatable_iff_unchanged (img : ImgInfo) :
    Repeatable img ↔ ∃ s, scanLines img = some s ∧ s.buffer = img.buffer := by
  constructor
  · intro h
    obtain ⟨first, second, hfirst, -, -, -, himg, -⟩ := h fun _ => []
    obtain ⟨s, hs, rfl⟩ := Option.map_eq_some_iff.mp hfirst
    exact ⟨s, hs, congrArg ImgInfo.buffer himg⟩
  · rintro ⟨s, hs, hb⟩ compress
    have himg : (encoded compress img s).img = img := by rw [encoded, hb]
    have hfirst : writeJPEGDatImg compress img = some (encoded compress img s) :=
      congrArg (Option.map (encoded compress img)) hs
    refine ⟨_, _, hfirst, ?_, rfl, rfl, himg, himg⟩
    rw [himg]
    exact hfirst

/-! ## Where the condition holds -/

variable {img : ImgInfo} {a b b' : Buffer} {p n k : Nat}

theorem swapRow_self (h : ∀ j < n, p + 3 * j + 2 < b.length ∧ b[p + 3 * j]? = b[p + 3 * j + 2]?) :
    swapRow p n b = some b :=
  upTo_eq (a := fun _ => b) fun j hj => swapPixel_self (h j hj).1 (h j hj).2

theorem RedEqualsBlue.upTo_handRow (h : RedEqualsBlue img) (hk : k ≤ img.imageHeight.toNat) :
    ∃ lines, upTo (handRow img) k (img.buffer, []) = some (img.buffer, lines) := by
  induction k with
  | zero => exact ⟨[], rfl⟩
  | succ k ih =>
    obtain ⟨lines, hrun⟩ := ih (by omega)
    have hswap : swapRow (rowStart img k) (pixels img.rowStride) img.buffer = some img.buffer :=
      swapRow_self fun j hj => h.pixel k hk j (lt_pixels.mp hj)
    have hread := readBytes_of_le (h.row k hk)
    refine ⟨lines ++ [(img.buffer.drop (rowStart img k)).take (3 * img.imageWidth.toNat)], ?_⟩
    rw [upTo, hrun, Option.bind_some]
    simp only [handRow, hswap, hread, bind, Option.bind_some]

/-- **Such an image** is encoded without a change. -/
theorem RedEqualsBlue.repeatable (h : RedEqualsBlue img) : Repeatable img := by
  obtain ⟨lines, hrun⟩ := h.upTo_handRow (Nat.le_refl _)
  rw [repeatable_iff_unchanged, scanLines_eq, hrun]
  exact ⟨_, rfl, rfl⟩

/-! ## Where the buffer stays as it was -/

theorem swapRow_length (h : swapRow p n b = some b') : b'.length = b.length := by
  refine upTo_invariant (I := fun _ c => c.length = b.length) (fun j c c' _ hc hp => ?_) rfl h
  rw [swapPixel_length hp, hc]

theorem swapRow_lt (h : swapRow p n b = some b') : ∀ j < n, p + 3 * j + 2 < b.length := by
  induction n generalizing b' with
  | zero => exact fun j hj => absurd hj (Nat.not_lt_zero j)
  | succ n ih =>
    obtain ⟨c, hc, hp⟩ := Option.bind_eq_some_iff.mp h
    have hlast := swapPixel_lt hp
    rw [swapRow_length hc] at hlast
    exact Nat.forall_lt_succ_right.mpr ⟨ih hc, hlast⟩

/-- What lies behind the row stays. -/
theorem swapRow_frame (h : swapRow p n b = some b') {i : Nat} (hi : p + 3 * n ≤ i) :
    b'[i]? = b[i]? := by
  refine upTo_invariant (I := fun _ d => d[i]? = b[i]?) (fun j d d' hj hd hp => ?_) rfl h
  rw [swapPixel_frame hp (by omega) (by omega), hd]

/-- **Exchanges at rising positions that restore a buffer do nothing**: the last one writes a place
no other has touched, so its bytes are equal, and so on back to the first. -/
theorem swapRow_restores (h : swapRow p n b = some a) (hab : ∀ i, p + 2 ≤ i → b[i]? = a[i]?) :
    b = a ∧ ∀ j < n, a[p + 3 * j]? = a[p + 3 * j + 2]? := by
  induction n with
  | zero => exact ⟨Option.some.inj h, fun j hj => absurd hj (Nat.not_lt_zero j)⟩
  | succ n ih =>
    obtain ⟨mid, hmid, hp⟩ := Option.bind_eq_some_iff.mp h
    have hthird : mid[p + 3 * n + 2]? = a[p + 3 * n + 2]? := by
      rw [swapRow_frame hmid (by omega), hab _ (by omega)]
    have hequal : mid[p + 3 * n]? = mid[p + 3 * n + 2]? := by
      rw [hthird, swapPixel_third hp]
    have hlt : p + 3 * n + 2 < mid.length := swapPixel_lt hp
    obtain rfl : mid = a := Option.some.inj ((swapPixel_self hlt hequal).symm.trans hp)
    obtain ⟨hb, hrest⟩ := ih hmid
    exact ⟨hb, Nat.forall_lt_succ_right.mpr ⟨hrest, hequal⟩⟩

theorem handRow_some {d d' : Buffer × List Buffer} (h : handRow img k d = some d') :
    swapRow (rowStart img k) (pixels img.rowStride) d.1 = some d'.1 ∧
      rowStart img k + 3 * img.imageWidth.toNat ≤ d'.1.length := by
  obtain ⟨b, hb, h⟩ := Option.bind_eq_some_iff.mp h
  obtain ⟨line, hline, h⟩ := Option.bind_eq_some_iff.mp h
  cases h
  refine ⟨hb, ?_⟩
  unfold readBytes at hline
  split at hline
  · assumption
  · cases hline

/-- What `k` rounds have seen that did not fault, with `b` the buffer after them. -/
structure Passed (img : ImgInfo) (k : Nat) (b : Buffer) : Prop where
  length : b.length = img.buffer.length
  row : ∀ y < k, rowStart img y + 3 * img.imageWidth.toNat ≤ img.buffer.length
  pixel : ∀ y < k, ∀ j, 3 * j < img.rowStride.toNat →
    rowStart img y + 3 * j + 2 < img.buffer.length
  /-- the index of the next row has not wrapped round -/
  start : rowStart img k = 54 + k * img.rowStride.toNat
  frame : ∀ i, rowStart img k + 2 ≤ i → b[i]? = img.buffer[i]?

theorem passed_zero : Passed img 0 img.buffer where
  length := rfl
  row y hy := absurd hy (Nat.not_lt_zero y)
  pixel y hy := absurd hy (Nat.not_lt_zero y)
  start := by
    rw [rowStart_eq img (by decide)]
    omega
  frame _ _ := rfl

/-- In a buffer of less than `2 ^ 32` bytes a row that does not fault leaves room for the next
index. -/
theorem Passed.succ (h : Passed img k b) (hsize : img.buffer.length < 2 ^ 32)
    (hk : k + 1 < 2 ^ 32) (hswap : swapRow (rowStart img k) (pixels img.rowStride) b = some b')
    (hrow : rowStart img k + 3 * img.imageWidth.toNat ≤ b'.length) : Passed img (k + 1) b' := by
  have hlen : b'.length = img.buffer.length := (swapRow_length hswap).trans h.length
  have hpixel : ∀ j, 3 * j < img.rowStride.toNat →
      rowStart img k + 3 * j + 2 < img.buffer.length := by
    intro j hj
    rw [← h.length]
    exact swapRow_lt hswap j (lt_pixels.mpr hj)
  have hroom : img.rowStride.toNat = 0 ∨
      rowStart img k + img.rowStride.toNat ≤ img.buffer.length := by
    have hlast := hpixel ((img.rowStride.toNat - 1) / 3)
    omega
  have hstart : rowStart img (k + 1) = rowStart img k + img.rowStride.toNat := by
    have hs := h.start
    rw [rowStart_eq img hk, Nat.succ_mul]
    rcases hroom with h0 | hroom
    · have h54 : k * img.rowStride.toNat = 0 := by rw [h0, Nat.mul_zero]
      omega
    · omega
  refine ⟨hlen, ?_, ?_, ?_, ?_⟩
  · exact Nat.forall_lt_succ_right.mpr ⟨h.row, hlen ▸ hrow⟩
  · exact Nat.forall_lt_succ_right.mpr ⟨h.pixel, hpixel⟩
  · rw [hstart, h.start, Nat.succ_mul, Nat.add_assoc]
  · intro i hi
    have hend : rowStart img k + 3 * pixels img.rowStride ≤ i := by
      unfold pixels
      omega
    rw [swapRow_frame hswap hend, h.frame i (by omega)]

theorem passed_of_upTo (hsize : img.buffer.length < 2 ^ 32) (hk : k < 2 ^ 32)
    {d : Buffer × List Buffer} (h : upTo (handRow img) k (img.buffer, []) = some d) :
    Passed img k d.1 := by
  refine upTo_invariant (I := fun j c => Passed img j c.1) (fun j c c' hj hc hround => ?_)
    passed_zero h
  obtain ⟨hswap, hrow⟩ := handRow_some hround
  exact hc.succ hsize (by omega) hswap hrow

/-- **Rounds that restore the buffer have exchanged equal bytes only.** -/
theorem equal_of_upTo (hsize : img.buffer.length < 2 ^ 32) (hk : k < 2 ^ 32)
    {d : Buffer × List Buffer} (h : upTo (handRow img) k (img.buffer, []) = some d)
    (hd : d.1 = img.buffer) : ∀ y < k, ∀ j, 3 * j < img.rowStride.toNat →
      img.buffer[rowStart img y + 3 * j]? = img.buffer[rowStart img y + 3 * j + 2]? := by
  induction k generalizing d with
  | zero => exact fun y hy => absurd hy (Nat.not_lt_zero y)
  | succ k ih =>
    obtain ⟨c, hc, hround⟩ := Option.bind_eq_some_iff.mp h
    obtain ⟨hswap, -⟩ := handRow_some hround
    rw [hd] at hswap
    obtain ⟨hc1, hrow⟩ := swapRow_restores hswap (passed_of_upTo hsize (by omega) hc).frame
    exact Nat.forall_lt_succ_right.mpr
      ⟨ih (by omega) hc hc1, fun j hj => hrow j (lt_pixels.mpr hj)⟩

theorem redEqualsBlue_of_repeatable (hsize : img.buffer.length < 2 ^ 32) (h : Repeatable img) :
    RedEqualsBlue img := by
  obtain ⟨s, hs, hb⟩ := (repeatable_iff_unchanged img).mp h
  rw [scanLines_eq, Option.map_eq_some_iff] at hs
  obtain ⟨d, hd, rfl⟩ := hs
  have hlt := img.imageHeight.toNat_lt
  have hpassed := passed_of_upTo hsize hlt hd
  exact ⟨hpassed.row, fun y hy j hj =>
    ⟨hpassed.pixel y hy j hj, equal_of_upTo hsize hlt hd hb y hy j hj⟩⟩

/-- **Encoding is repeatable where the exchange changes nothing**, and, in a buffer of a size that
32 bits can hold, only there. -/
theorem writeJPEGDat_repeatable (img : ImgInfo) :
    (RedEqualsBlue img → Repeatable img) ∧
      (img.buffer.length < 2 ^ 32 → Repeatable img → RedEqualsBlue img) :=
  ⟨RedEqualsBlue.repeatable, redEqualsBlue_of_repeatable⟩

/-- One pixel. -/
def onePixel : ImgInfo where
  buffer := List.replicate 54 0 ++ [1, 2, 3]
  imageHeight := 1
  imageWidth := 1
  rowStride := 3
  quality := 100

/-- The second call hands the pixel as it was stored, and leaves the image so. -/
theorem not_repeatable_onePixel : ¬ ∀ img : ImgInfo, Repeatable img := by
  intro h
  obtain ⟨s, hs, hb⟩ := (repeatable_iff_unchanged onePixel).mp (h onePixel)
  have hrun : scanLines onePixel =
      some ⟨1, List.replicate 54 0 ++ [3, 2, 1], [[3, 2, 1]]⟩ := rfl
  rw [hrun] at hs
  cases hs
  exact absurd hb (by decide)

end Camerasp.Jpeg
