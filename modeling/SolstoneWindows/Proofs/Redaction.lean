import Mathlib.Data.Nat.Bitwise
import Mathlib.Tactic.Ring
import SolstoneWindows.CaptureWgc

/-!
# Redaction as a barrier

What the frame path lets through. `evaluate_eq` gives the verdict in closed form: a frame
is dropped exactly when some window blocks it, and otherwise the rectangles are those of the
excluded windows. `applyRedaction_eq` gives the redacted buffer byte by byte: the loops visit
a list of byte offsets, and what they leave depends only on which offsets are in it.

The offsets are computed with wrapping arithmetic, so a pixel whose exact offset is `2 ^ 64`
or more is written somewhere else. `onFrameArrived_barrier_iff` states the barrier property
(two buffers that differ only under excluded windows give the same frame, what is outside
stays, what is inside is black) and says for which rules, windows and sizes it holds: exactly
when no excluded pixel's offset wraps onto a pixel that is not excluded.
-/

set_option autoImplicit false

namespace SolstoneWindows.Proofs.Redaction

open ObserverModel
open ObserverExclusion
open CaptureWgc

/-! ## The verdict -/

section Verdict

variable (rules : ExclusionRules)

/-- The rectangles of the windows the rules exclude, in enumeration order. -/
def excludedRects (windows : List WindowInfo) : List Rect :=
  (windows.filter (windowExcluded rules)).filterMap (·.bounds)

/-- A window that cannot be redacted: its identity is unknown, or it is excluded and has no
bounds. -/
def blocks (window : WindowInfo) : Bool :=
  window.identityUncertain || (windowExcluded rules window && window.bounds.isNone)

/-- The window loop in closed form. -/
theorem evaluateFrom_eq (windows : List WindowInfo) (rects : List Rect) :
    evaluateFrom rules rects windows = if windows.any (blocks rules) then .drop
      else if rects ++ excludedRects rules windows = [] then .pass
      else .redact (rects ++ excludedRects rules windows) := by
  induction windows generalizing rects with
  | nil => simp [evaluateFrom, excludedRects, List.isEmpty_iff]
  | cons window windows ih =>
    rw [evaluateFrom]
    by_cases hu : window.identityUncertain = true
    · simp [hu, blocks]
    · by_cases hx : windowExcluded rules window = true
      · cases hb : window.bounds with
        | none => simp [hu, hx, hb, blocks]
        | some rect => simp [hu, hx, hb, blocks, ih, excludedRects]
      · simp [hu, hx, blocks, ih, excludedRects]

/-- With no rule configured, no window is excluded. -/
theorem windowExcluded_of_inactive (h : rules.isActive = false) (window : WindowInfo) :
    windowExcluded rules window = false := by
  simp only [ExclusionRules.isActive, Bool.or_eq_false_iff, Bool.not_eq_false',
    List.isEmpty_iff] at h
  obtain ⟨⟨hexes, htitles⟩, hprivate⟩ := h
  simp [windowExcluded, foregroundExcluded, exeExcluded, titleExcluded, hexes, htitles, hprivate]

/-- The verdict in closed form. -/
theorem evaluate_eq (windows : List WindowInfo) : evaluate rules windows =
      if rules.isActive && windows.any (blocks rules) then .drop
      else if excludedRects rules windows = [] then .pass
      else .redact (excludedRects rules windows) := by
  rw [evaluate, evaluateFrom_eq]
  cases hact : rules.isActive with
  | false => simp [excludedRects, windowExcluded_of_inactive rules hact]
  | true => simp

end Verdict

/-! ## The pixels a rectangle covers -/

/-- The pixel in column `x`, row `y` lies in the rectangle. -/
def Contains (r : Rect) (x y : Nat) : Prop :=
  r.x.toInt ≤ x ∧ x < r.x.toInt + r.width.toNat ∧ r.y.toInt ≤ y ∧ y < r.y.toInt + r.height.toNat

/-- Pixel number `k` of a frame, counted row by row, lies in one of the rectangles. -/
def Covered (width height : UInt32) (rects : List Rect) (k : Nat) : Prop :=
  k < width.toNat * height.toNat ∧ ∃ r ∈ rects, Contains r (k % width.toNat) (k / width.toNat)

/-- The byte offsets the loops over one rectangle visit, in order. -/
def rectOffsets (width height : UInt32) (r : Rect) : List Nat :=
  (List.range' (clampStart r.y) (clampEnd r.y r.height height - clampStart r.y)).flatMap fun y =>
    (List.range' (clampStart r.x) (clampEnd r.x r.width width - clampStart r.x)).map fun x =>
      usize (usize (y * (width.toNat * 4)) + x * 4)

/-- The byte offsets the redaction of a frame visits. -/
def offsets (width height : UInt32) (rects : List Rect) : List Nat :=
  rects.flatMap (rectOffsets width height)

/-- The clamped range of one axis holds the in-frame coordinates of the rectangle. -/
theorem mem_clamped_iff (v : Int32) (extent frame : UInt32) (x : Nat) :
    x ∈ List.range' (clampStart v) (clampEnd v extent frame - clampStart v) ↔
      x < frame.toNat ∧ v.toInt ≤ x ∧ (x : Int) < v.toInt + extent.toNat := by
  rw [List.mem_range'_1, clampStart, clampEnd]
  omega

theorem row_add_lt {x y w h : Nat} (hx : x < w) (hy : y < h) : y * w + x < h * w := calc
  y * w + x < (y + 1) * w := by rw [Nat.add_one_mul]; omega
  _ ≤ h * w := Nat.mul_le_mul_right _ hy

/-- Wrapping the row before the column is added changes nothing: both wrap at `2 ^ 64`. -/
theorem usize_row_add (y x w : Nat) :
    usize (usize (y * (w * 4)) + x * 4) = 4 * (y * w + x) % 2 ^ 64 := by
  have hexact : y * (w * 4) + x * 4 = 4 * (y * w + x) := by ring
  rw [usize, usize, Nat.mod_add_mod, hexact]

/-- An offset is visited exactly when it is the wrapped offset of a covered pixel. -/
theorem mem_rectOffsets_iff (width height : UInt32) (r : Rect) (i : Nat) :
    i ∈ rectOffsets width height r ↔
      ∃ k, Covered width height [r] k ∧ i = 4 * k % 2 ^ 64 := by
  simp only [rectOffsets, List.mem_flatMap, List.mem_map, mem_clamped_iff, usize_row_add, Covered,
    List.mem_singleton, exists_eq_left, Contains]
  constructor
  · rintro ⟨y, ⟨hyh, hy0, hy1⟩, x, ⟨hxw, hx0, hx1⟩, rfl⟩
    have hdiv : (y * width.toNat + x) / width.toNat = y := by
      rw [Nat.mul_comm, Nat.mul_add_div (by omega), Nat.div_eq_of_lt hxw, Nat.add_zero]
    have hmod : (y * width.toNat + x) % width.toNat = x := by
      rw [Nat.mul_comm, Nat.mul_add_mod, Nat.mod_eq_of_lt hxw]
    refine ⟨y * width.toNat + x, ⟨?_, ?_⟩, rfl⟩
    · rw [Nat.mul_comm width.toNat]
      exact row_add_lt hxw hyh
    · rw [hdiv, hmod]
      exact ⟨hx0, hx1, hy0, hy1⟩
  · rintro ⟨k, ⟨hk, hx0, hx1, hy0, hy1⟩, rfl⟩
    have hw : 0 < width.toNat := Nat.pos_of_mul_pos_right (Nat.zero_lt_of_lt hk)
    refine ⟨k / width.toNat, ⟨Nat.div_lt_of_lt_mul hk, hy0, hy1⟩, k % width.toNat,
      ⟨Nat.mod_lt _ hw, hx0, hx1⟩, ?_⟩
    rw [Nat.div_add_mod']

/-- The offsets of a whole list of rectangles. -/
theorem mem_offsets_iff (width height : UInt32) (rects : List Rect) (i : Nat) :
    i ∈ offsets width height rects ↔
      ∃ k, Covered width height rects k ∧ i = 4 * k % 2 ^ 64 := by
  simp only [offsets, List.mem_flatMap, mem_rectOffsets_iff, Covered, List.mem_singleton,
    exists_eq_left]
  constructor
  · rintro ⟨r, hr, k, ⟨hk, hc⟩, hi⟩
    exact ⟨k, ⟨hk, r, hr, hc⟩, hi⟩
  · rintro ⟨k, ⟨hk, r, hr, hc⟩, hi⟩
    exact ⟨r, hr, k, ⟨hk, hc⟩, hi⟩

/-! ## The redacted buffer -/

/-- The bytes of an opaque black pixel. -/
def black (c : Nat) : UInt8 := if c = 3 then 255 else 0

/-- The one offset whose bounds check wraps: four bytes further is `2 ^ 64`. -/
def lastOffset : Nat := 2 ^ 64 - 4

/-- One pixel write, at a pixel-aligned `usize` offset of a buffer Rust can allocate. -/
theorem blacken_eq (pixels : List UInt8) (i : Nat) (halign : i % 4 = 0) (hi : i < 2 ^ 64)
    (hlen : pixels.length < 2 ^ 63) :
    blacken pixels i = if i = lastOffset then none else if i + 4 ≤ pixels.length then
        some ((((pixels.set i 0).set (i + 1) 0).set (i + 2) 0).set (i + 3) 255)
      else some pixels := by
  unfold blacken lastOffset
  by_cases hlast : i = 2 ^ 64 - 4
  · have hwrap : usize (i + 4) = 0 := by rw [hlast]; rfl
    have hout : ¬ i < pixels.length := by omega
    rw [hwrap, if_pos (Nat.zero_le _), if_pos hlast]
    simp [store, hout]
  have h4 : usize (i + 4) = i + 4 := Nat.mod_eq_of_lt (by omega)
  rw [h4, if_neg hlast]
  by_cases hfit : i + 4 ≤ pixels.length
  · have h1 : usize (i + 1) = i + 1 := Nat.mod_eq_of_lt (by omega)
    have h2 : usize (i + 2) = i + 2 := Nat.mod_eq_of_lt (by omega)
    have h3 : usize (i + 3) = i + 3 := Nat.mod_eq_of_lt (by omega)
    have hb0 : i < pixels.length := by omega
    have hb1 : i + 1 < pixels.length := by omega
    have hb2 : i + 2 < pixels.length := by omega
    have hb3 : i + 3 < pixels.length := by omega
    simp [store, h1, h2, h3, hfit, hb0, hb1, hb2, hb3]
  · simp [hfit]

/-- What a pixel write leaves, byte by byte. -/
theorem getElem?_set_pixel (pixels : List UInt8) (i j : Nat) (halign : i % 4 = 0)
    (hfit : i + 4 ≤ pixels.length) :
    ((((pixels.set i 0).set (i + 1) 0).set (i + 2) 0).set (i + 3) 255)[j]? =
      if j / 4 * 4 = i then some (black (j % 4)) else pixels[j]? := by
  simp only [List.getElem?_set, List.length_set, black]
  grind

/-- The redacted bytes: black where the offset list names the byte's pixel and the buffer
holds all of it, and the captured byte elsewhere. -/
def redacted (offsets : List Nat) (pixels : List UInt8) : List UInt8 :=
  pixels.mapIdx fun j v =>
    if j / 4 * 4 ∈ offsets ∧ j / 4 * 4 + 4 ≤ pixels.length then black (j % 4) else v

theorem redacted_nil (pixels : List UInt8) : redacted [] pixels = pixels := by
  apply List.ext_getElem?
  intro j
  simp [redacted, List.getElem?_mapIdx]

theorem redacted_length (offsets : List Nat) (pixels : List UInt8) :
    (redacted offsets pixels).length = pixels.length := by
  simp [redacted]

/-- `redacted` of a longer offset list: the first offset's pixel, then the rest. -/
theorem redacted_cons (i : Nat) (offsets : List Nat) (pixels : List UInt8) (halign : i % 4 = 0) :
    redacted (i :: offsets) pixels = redacted offsets (if i + 4 ≤ pixels.length then
          (((pixels.set i 0).set (i + 1) 0).set (i + 2) 0).set (i + 3) 255
        else pixels) := by
  apply List.ext_getElem?
  intro j
  by_cases hfit : i + 4 ≤ pixels.length
  · simp only [hfit, if_true, redacted, List.getElem?_mapIdx, List.length_set,
      getElem?_set_pixel pixels i j halign hfit, List.mem_cons]
    grind
  · simp only [hfit, if_false, redacted, List.getElem?_mapIdx, List.mem_cons]
    grind

/-- The pixel loop over a list of offsets: it panics if the list has the last offset, and
otherwise leaves the redacted buffer. -/
theorem foldlM_blacken (offsets : List Nat) (pixels : List UInt8)
    (haligned : ∀ i ∈ offsets, i % 4 = 0 ∧ i < 2 ^ 64) (hlen : pixels.length < 2 ^ 63) :
    offsets.foldlM blacken pixels =
      if lastOffset ∈ offsets then none else some (redacted offsets pixels) := by
  induction offsets generalizing pixels with
  | nil => simp [redacted_nil]
  | cons i offsets ih =>
    obtain ⟨halign, hi⟩ := haligned i List.mem_cons_self
    have hrest : ∀ i ∈ offsets, i % 4 = 0 ∧ i < 2 ^ 64 :=
      fun i hi => haligned i (List.mem_cons_of_mem _ hi)
    rw [List.foldlM_cons, blacken_eq pixels i halign hi hlen, redacted_cons i offsets pixels halign]
    by_cases hlast : i = lastOffset
    · simp [hlast]
    have hmem : lastOffset ∈ i :: offsets ↔ lastOffset ∈ offsets := by
      rw [List.mem_cons]
      exact or_iff_right (Ne.symm hlast)
    by_cases hfit : i + 4 ≤ pixels.length
    · simpa [hlast, hfit, hmem] using ih _ hrest (by simpa using hlen)
    · simpa [hlast, hfit, hmem] using ih _ hrest hlen

/-- Nested loops visit the flattened list. -/
theorem foldlM_flatMap {α β γ : Type} (f : γ → β → Option γ) (g : α → List β) (l : List α)
    (init : γ) :
    (l.flatMap g).foldlM f init = l.foldlM (fun acc a => (g a).foldlM f acc) init := by
  induction l generalizing init with
  | nil => simp
  | cons a l ih => simp [List.foldlM_append, ih]

/-- One rectangle is a pixel loop over its offsets. -/
theorem blackenRect_eq (width height : UInt32) (pixels : List UInt8) (r : Rect) :
    blackenRect width height pixels r = (rectOffsets width height r).foldlM blacken pixels := by
  simp only [blackenRect]
  split
  · next hempty =>
    have hnil : rectOffsets width height r = [] := by
      rcases hempty with hx | hy
      · have hrow : clampEnd r.x r.width width - clampStart r.x = 0 := by omega
        simp [rectOffsets, hrow]
      · have hcol : clampEnd r.y r.height height - clampStart r.y = 0 := by omega
        simp [rectOffsets, hcol]
    rw [hnil]
    rfl
  · simp only [rectOffsets, foldlM_flatMap, List.foldlM_map]

/-- An empty frame has no covered pixel, so nothing is visited. -/
theorem offsets_of_empty (width height : UInt32) (h : width = 0 ∨ height = 0)
    (rects : List Rect) : offsets width height rects = [] := by
  apply List.eq_nil_iff_forall_not_mem.mpr
  intro i hi
  obtain ⟨k, ⟨hk, -⟩, -⟩ := (mem_offsets_iff width height rects i).mp hi
  rcases h with rfl | rfl <;> simp at hk

/-- `applyRedaction` is one pixel loop over the offsets of every rectangle. -/
theorem applyRedaction_eq_foldlM (pixels : List UInt8) (width height : UInt32)
    (format : ScreenPixelFormat) (rects : List Rect) :
    applyRedaction pixels width height format rects =
      (offsets width height rects).foldlM blacken pixels := by
  unfold applyRedaction
  split
  · next hnone =>
    rcases hnone with hw | hh | hr
    · rw [offsets_of_empty width height (.inl hw)]
      rfl
    · rw [offsets_of_empty width height (.inr hh)]
      rfl
    · simp [offsets, hr]
  · rw [offsets, foldlM_flatMap]
    congr 1
    funext pixels r
    exact blackenRect_eq width height pixels r

/-- `applyRedaction` panics when a covered pixel has the last offset, and otherwise leaves
the redacted buffer. -/
theorem applyRedaction_eq (pixels : List UInt8) (width height : UInt32)
    (format : ScreenPixelFormat) (rects : List Rect) (hlen : pixels.length < 2 ^ 63) :
    applyRedaction pixels width height format rects =
      if lastOffset ∈ offsets width height rects then none
      else some (redacted (offsets width height rects) pixels) := by
  rw [applyRedaction_eq_foldlM]
  apply foldlM_blacken _ _ _ hlen
  intro i hi
  obtain ⟨k, -, rfl⟩ := (mem_offsets_iff width height rects i).mp hi
  omega

/-! ## The crop -/

theorem evenBelow_toNat (n : UInt32) : (evenBelow n).toNat = n.toNat / 2 * 2 := by
  have hn : n.toNat < 2 ^ 32 := n.toNat_lt
  have hmask : (~~~(1 : UInt32)).toNat = 2 ^ 32 - 2 := by decide
  rw [evenBelow, UInt32.toNat_and, hmask]
  have hhalf : (n.toNat &&& (2 ^ 32 - 2)) / 2 = n.toNat / 2 := by
    rw [Nat.and_div_two]
    show n.toNat / 2 &&& (2 ^ 31 - 1) = _
    rw [Nat.and_two_pow_sub_one_eq_mod, Nat.mod_eq_of_lt (by omega)]
  have heven : ¬ (n.toNat &&& (2 ^ 32 - 2)) % 2 = 1 := by
    rw [Nat.and_mod_two_eq_one]
    exact fun h => absurd h.2 (by decide)
  omega

theorem cropRows_length (pixels : List UInt8) (stride rowBytes n : Nat) (hrow : rowBytes ≤ stride)
    (hlen : n * stride ≤ pixels.length) :
    (cropRows pixels stride rowBytes n).length = n * rowBytes := by
  induction n with
  | zero => simp [cropRows]
  | succ n ih =>
    rw [Nat.add_one_mul] at hlen
    have ih := ih (by omega)
    rw [cropRows] at ih ⊢
    rw [List.range_succ, List.flatMap_append, List.length_append, ih]
    simp only [List.flatMap_cons, List.flatMap_nil, List.append_nil, List.length_take,
      List.length_drop, Nat.add_one_mul]
    omega

/-- Byte `j` of row `y` of the crop is byte `j` of row `y` of the frame. -/
theorem getElem?_cropRows (pixels : List UInt8) (stride rowBytes n y j : Nat)
    (hrow : rowBytes ≤ stride) (hlen : n * stride ≤ pixels.length) (hy : y < n)
    (hj : j < rowBytes) :
    (cropRows pixels stride rowBytes n)[y * rowBytes + j]? = pixels[y * stride + j]? := by
  induction n with
  | zero => omega
  | succ n ih =>
    rw [Nat.add_one_mul] at hlen
    have hprev := cropRows_length pixels stride rowBytes n hrow (by omega)
    have hsplit : cropRows pixels stride rowBytes (n + 1) =
        cropRows pixels stride rowBytes n ++ (pixels.drop (n * stride)).take rowBytes := by
      simp [cropRows, List.range_succ]
    rw [hsplit]
    rcases Nat.lt_or_eq_of_le (Nat.lt_succ_iff.mp hy) with hlt | rfl
    · rw [List.getElem?_append_left (by rw [hprev]; exact row_add_lt hj hlt)]
      exact ih (by omega) hlt
    · rw [List.getElem?_append_right (by rw [hprev]; omega), hprev, Nat.add_sub_cancel_left,
        List.getElem?_take_of_lt hj, List.getElem?_drop]

/-- The crop either leaves the frame alone or cuts a frame whose buffer is exactly full. -/
theorem normalizeEven_cases (frame : ScreenFrame) : normalizeEven frame = frame ∨
      (frame.pixels.length = frame.width.toNat * frame.height.toNat * 4 ∧ normalizeEven frame =
          { frame with
            width := evenBelow frame.width
            height := evenBelow frame.height
            pixels := cropRows frame.pixels (frame.width.toNat * 4)
              ((evenBelow frame.width).toNat * 4) (evenBelow frame.height).toNat }) := by
  unfold normalizeEven
  simp only
  split
  · exact .inl rfl
  split
  · exact .inl rfl
  next expected hexp =>
  split
  · exact .inl rfl
  next hlen =>
  obtain ⟨area, harea, htimes⟩ := Option.bind_eq_some_iff.mp hexp
  simp only [checkedMul] at harea htimes
  split at harea <;> cases harea
  split at htimes <;> cases htimes
  exact .inr ⟨not_not.mp hlen, rfl⟩

/-- A pixel of the cropped frame is the pixel with the same coordinates of the frame. -/
theorem normalizeEven_pixel (frame : ScreenFrame) (x y c : Nat)
    (hx : x < (normalizeEven frame).width.toNat) (hy : y < (normalizeEven frame).height.toNat)
    (hc : c < 4)
    (hfull : 4 * (y * (normalizeEven frame).width.toNat + x) + 4 ≤
      (normalizeEven frame).pixels.length) :
    x < frame.width.toNat ∧ y < frame.height.toNat ∧
      4 * (y * frame.width.toNat + x) + 4 ≤ frame.pixels.length ∧
      (normalizeEven frame).pixels[4 * (y * (normalizeEven frame).width.toNat + x) + c]? =
        frame.pixels[4 * (y * frame.width.toNat + x) + c]? := by
  rcases normalizeEven_cases frame with heq | ⟨hlen, heq⟩
  · rw [heq] at hx hy hfull ⊢
    exact ⟨hx, hy, hfull, rfl⟩
  rw [heq] at hx hy ⊢
  simp only [evenBelow_toNat] at hx hy ⊢
  have hxw : x < frame.width.toNat := by omega
  have hyh : y < frame.height.toNat := by omega
  refine ⟨hxw, hyh, ?_, ?_⟩
  · have hin := row_add_lt hxw hyh
    rw [Nat.mul_comm frame.height.toNat] at hin
    omega
  · have hrows : frame.height.toNat / 2 * 2 * (frame.width.toNat * 4) ≤
        frame.pixels.length := calc
      frame.height.toNat / 2 * 2 * (frame.width.toNat * 4)
          ≤ frame.height.toNat * (frame.width.toNat * 4) := Nat.mul_le_mul_right _ (by omega)
      _ = frame.pixels.length := by rw [hlen]; ring
    have hidx := getElem?_cropRows frame.pixels (frame.width.toNat * 4)
      (frame.width.toNat / 2 * 2 * 4) (frame.height.toNat / 2 * 2) y (x * 4 + c) (by omega)
      hrows hy (by omega)
    convert hidx using 2 <;> ring

/-! ## The barrier -/

section Barrier

/-- A handler that knows its rules and was asked for a format the encoder takes. -/
structure Ready (h : WgcHandler) (rules : ExclusionRules) : Prop where
  /-- The policy could be read. -/
  resolved : h.resolveRules = some rules
  /-- The frame has four bytes to a pixel. -/
  format : h.colorFormat ≠ .rgba16F

/-- What the callback does with a mapped buffer when the enumerator answers `windows`. -/
def frameResult (h : WgcHandler) (width height : UInt32) (timestamp : Option Int)
    (windows : List WindowInfo) (data : List UInt8) : FrameResult :=
  (onFrameArrived h ⟨width, height, timestamp, .ok data⟩ (.ok windows)).1

/-- The pixel format a handler stamps on its frames. -/
def pixelFormatOf (h : WgcHandler) : ScreenPixelFormat :=
  match h.colorFormat with
  | .bgra8 => .bgra8
  | _ => .rgba8

/-- The frame a handler emits for a buffer, before the crop. -/
def shot (h : WgcHandler) (width height : UInt32) (timestamp : Option Int) (data : List UInt8) :
    ScreenFrame :=
  { seq := h.seq
    arrival100ns := timestamp.getD 0
    width := width
    height := height
    pixelFormat := pixelFormatOf h
    pixels := data }

variable {h : WgcHandler} {rules : ExclusionRules} {windows : List WindowInfo}
  {width height : UInt32} {timestamp : Option Int} {data : List UInt8}

/-- The callback of a ready handler, by verdict. -/
theorem frameResult_eq (hready : Ready h rules) :
    frameResult h width height timestamp windows data = match evaluate rules windows with
      | .drop => .dropped
      | .pass => .emitted (normalizeEven (shot h width height timestamp data))
      | .redact rects =>
        match applyRedaction data width height (pixelFormatOf h) rects with
        | none => .panicked
        | some data => .emitted (normalizeEven (shot h width height timestamp data)) := by
  have hexclude : onFrameArrived h ⟨width, height, timestamp, .ok data⟩ (.ok windows) =
      h.exclude rules ⟨width, height, timestamp, .ok data⟩ (pixelFormatOf h)
        (.ok windows) data := by
    have hformat := hready.format
    rw [onFrameArrived, hready.resolved, pixelFormatOf]
    cases hc : h.colorFormat <;> simp_all
  rw [frameResult, hexclude, WgcHandler.exclude]
  cases hact : rules.isActive with
  | false =>
    have hpass : evaluate rules windows = .pass := by simp [evaluate, hact]
    rw [hpass]
    rfl
  | true =>
    cases evaluate rules windows with
    | pass | drop => rfl
    | redact rects =>
      simp only [if_true]
      cases applyRedaction data width height (pixelFormatOf h) rects <;> rfl

/-- A frame that is not dropped is redacted with the excluded rectangles, however many there
are, and then cropped. -/
theorem frameResult_of_not_drop (hready : Ready h rules) (hdrop : evaluate rules windows ≠ .drop)
    (hlen : data.length < 2 ^ 63) :
    frameResult h width height timestamp windows data =
      if lastOffset ∈ offsets width height (excludedRects rules windows) then .panicked
      else .emitted (normalizeEven (shot h width height timestamp
        (redacted (offsets width height (excludedRects rules windows)) data))) := by
  rw [frameResult_eq hready]
  have hverdict := evaluate_eq rules windows
  split at hverdict
  · exact absurd hverdict hdrop
  · split at hverdict
    · next hnone => simp [hverdict, hnone, offsets, redacted_nil]
    · simp only [hverdict, applyRedaction_eq _ _ _ _ _ hlen]
      split <;> simp_all

/-- Byte `j` of a `len`-byte buffer is part of a complete covered pixel. -/
def Hidden (width height : UInt32) (rects : List Rect) (len j : Nat) : Prop :=
  j / 4 * 4 + 4 ≤ len ∧ Covered width height rects (j / 4)

/-- The frame path keeps what is under excluded windows out of the frames it emits, and
nothing else, for every buffer of `len` bytes. -/
structure Barrier (rules : ExclusionRules) (windows : List WindowInfo) (width height : UInt32)
    (len : Nat) : Prop where
  /-- Two buffers that agree outside the excluded rectangles are both dropped, or give the
  same frame. A trailing partial pixel counts as outside. -/
  noninterference : ∀ h timestamp (a b : List UInt8), Ready h rules →
    a.length = len → b.length = len →
    (∀ j < len, ¬ Hidden width height (excludedRects rules windows) len j → a[j]? = b[j]?) →
    (frameResult h width height timestamp windows a = .dropped ∧
      frameResult h width height timestamp windows b = .dropped) ∨
    ∃ frame, frameResult h width height timestamp windows a = .emitted frame ∧
      frameResult h width height timestamp windows b = .emitted frame
  /-- An active rule and a window that cannot be redacted drop the frame. -/
  failClosed : rules.isActive = true → (∃ window ∈ windows, window.identityUncertain = true ∨
      (windowExcluded rules window = true ∧ window.bounds = none)) →
    ∀ h timestamp (a : List UInt8), Ready h rules → a.length = len →
      frameResult h width height timestamp windows a = .dropped
  /-- A complete emitted pixel is black inside the excluded rectangles and the captured pixel
  outside them. -/
  pixels : ∀ h timestamp (a : List UInt8) frame, Ready h rules → a.length = len →
    frameResult h width height timestamp windows a = .emitted frame →
    ∀ x < frame.width.toNat, ∀ y < frame.height.toNat,
      4 * (y * frame.width.toNat + x) + 4 ≤ frame.pixels.length → ∀ c < 4,
      (Covered width height (excludedRects rules windows) (y * width.toNat + x) →
        frame.pixels[4 * (y * frame.width.toNat + x) + c]? = some (black c)) ∧
      (¬ Covered width height (excludedRects rules windows) (y * width.toNat + x) →
        frame.pixels[4 * (y * frame.width.toNat + x) + c]? = a[4 * (y * width.toNat + x) + c]?)

/-- No excluded pixel's offset wraps onto the last offset, or onto a pixel of the buffer that
is not excluded. -/
def WrapSafe (rules : ExclusionRules) (windows : List WindowInfo) (width height : UInt32)
    (len : Nat) : Prop :=
  evaluate rules windows ≠ .drop → ∀ k, Covered width height (excludedRects rules windows) k →
      4 * k % 2 ^ 64 ≠ lastOffset ∧ (4 * k % 2 ^ 64 + 4 ≤ len →
          Covered width height (excludedRects rules windows) (4 * k % 2 ^ 64 / 4))

/-- The redacted buffer, when no offset wraps onto a foreign pixel: black where it is hidden,
captured elsewhere. -/
theorem getElem?_redacted {len : Nat} {rects : List Rect} (hdata : data.length = len)
    (hlen : len < 2 ^ 63) (hsafe : ∀ k, Covered width height rects k → 4 * k % 2 ^ 64 + 4 ≤ len →
      Covered width height rects (4 * k % 2 ^ 64 / 4)) (j : Nat) :
    (Hidden width height rects len j →
      (redacted (offsets width height rects) data)[j]? = some (black (j % 4))) ∧
    (¬ Hidden width height rects len j →
      (redacted (offsets width height rects) data)[j]? = data[j]?) := by
  subst hdata
  have hiff : (j / 4 * 4 ∈ offsets width height rects ∧ j / 4 * 4 + 4 ≤ data.length) ↔
      Hidden width height rects data.length j := by
    rw [mem_offsets_iff, Hidden]
    constructor
    · rintro ⟨⟨k, hk, hoff⟩, hfit⟩
      have hcov := hsafe k hk (by omega)
      rw [← hoff, Nat.mul_div_cancel _ (by decide)] at hcov
      exact ⟨hfit, hcov⟩
    · rintro ⟨hfit, hcov⟩
      exact ⟨⟨j / 4, hcov, by omega⟩, hfit⟩
  simp only [redacted, List.getElem?_mapIdx]
  constructor
  · intro hhid
    have hj : j < data.length := by
      have hfit := hhid.1
      omega
    rw [List.getElem?_eq_getElem hj]
    simp [hiff.mpr hhid]
  · intro hhid
    have hnot := mt hiff.mp hhid
    cases data[j]? <;> simp [hnot]

/-- Inside the frame, the pixel at `(x, y)` is hidden exactly when it is covered. -/
theorem hidden_pixel_iff {x y c len : Nat} (rects : List Rect) (hc : c < 4)
    (hfit : 4 * (y * width.toNat + x) + 4 ≤ len) :
    Hidden width height rects len (4 * (y * width.toNat + x) + c) ↔
      Covered width height rects (y * width.toNat + x) := by
  have hdiv : (4 * (y * width.toNat + x) + c) / 4 = y * width.toNat + x := by omega
  rw [Hidden, hdiv]
  constructor
  · exact fun hhid => hhid.2
  · exact fun hcov => ⟨by omega, hcov⟩

/-- Without a wrap onto a foreign pixel, the barrier holds. -/
theorem barrier_of_wrapSafe {len : Nat} (hlen : len < 2 ^ 63)
    (hsafe : WrapSafe rules windows width height len) :
    Barrier rules windows width height len := by
  -- What a frame that is not dropped comes to, for every buffer of this length.
  have hemit : evaluate rules windows ≠ .drop → ∀ h timestamp (a : List UInt8), Ready h rules →
      a.length = len → frameResult h width height timestamp windows a =
        .emitted (normalizeEven (shot h width height timestamp
          (redacted (offsets width height (excludedRects rules windows)) a))) := by
    intro hdrop h timestamp a hready ha
    rw [frameResult_of_not_drop hready hdrop (by omega), if_neg]
    intro hlast
    obtain ⟨k, hk, hoff⟩ := (mem_offsets_iff _ _ _ _).mp hlast
    exact (hsafe hdrop k hk).1 hoff.symm
  have hdropped : evaluate rules windows = .drop → ∀ h timestamp (a : List UInt8), Ready h rules →
      frameResult h width height timestamp windows a = .dropped := by
    intro hdrop h timestamp a hready
    rw [frameResult_eq hready, hdrop]
  refine ⟨?_, ?_, ?_⟩
  · intro h timestamp a b hready ha hb hagree
    by_cases hdrop : evaluate rules windows = .drop
    · exact .inl ⟨hdropped hdrop h timestamp a hready, hdropped hdrop h timestamp b hready⟩
    refine .inr ⟨_, hemit hdrop h timestamp a hready ha, ?_⟩
    rw [hemit hdrop h timestamp b hready hb]
    congr 3
    apply List.ext_getElem?
    intro j
    have hreda := getElem?_redacted ha hlen (fun k hk => (hsafe hdrop k hk).2) j
    have hredb := getElem?_redacted hb hlen (fun k hk => (hsafe hdrop k hk).2) j
    by_cases hhid : Hidden width height (excludedRects rules windows) len j
    · rw [hreda.1 hhid, hredb.1 hhid]
    · rw [hreda.2 hhid, hredb.2 hhid]
      by_cases hj : j < len
      · exact (hagree j hj hhid).symm
      · rw [List.getElem?_eq_none (by omega), List.getElem?_eq_none (by omega)]
  · intro hact ⟨window, hmem, hblock⟩ h timestamp a hready _
    have hblocked : windows.any (blocks rules) = true := by
      refine List.any_eq_true.mpr ⟨window, hmem, ?_⟩
      rcases hblock with hu | ⟨hx, hb⟩
      · simp [blocks, hu]
      · simp [blocks, hx, hb]
    exact hdropped (by simp [evaluate_eq, hact, hblocked]) h timestamp a hready
  · intro h timestamp a frame hready ha hframe x hx y hy hfull c hc
    have hdrop : evaluate rules windows ≠ .drop := by
      intro hdrop
      rw [hdropped hdrop h timestamp a hready] at hframe
      cases hframe
    rw [hemit hdrop h timestamp a hready ha] at hframe
    cases hframe
    obtain ⟨-, -, hfit, hpixel⟩ := normalizeEven_pixel _ x y c hx hy hc hfull
    simp only [shot, redacted_length, ha] at hfit hpixel
    have hforeign := fun k hk => (hsafe hdrop k hk).2
    have hred := getElem?_redacted ha hlen hforeign (4 * (y * width.toNat + x) + c)
    rw [hidden_pixel_iff _ hc hfit] at hred
    have hmod : (4 * (y * width.toNat + x) + c) % 4 = c := by omega
    rw [hmod] at hred
    rw [← hpixel] at hred
    exact hred

/-- A handler ready to apply `rules`. -/
def readyHandler (rules : ExclusionRules) : WgcHandler :=
  { colorFormat := .rgba8
    policyAvailable := true
    rules := some rules
    seq := 0
    framesRedacted := 0
    framesDropped := 0
    state := .inactive }

theorem readyHandler_ready (rules : ExclusionRules) : Ready (readyHandler rules) rules :=
  ⟨rfl, by simp [readyHandler]⟩

/-- Where the barrier holds, no offset wraps onto a foreign pixel: such a write would blacken
a pixel outside the excluded rectangles, or index past the buffer. -/
theorem wrapSafe_of_barrier {len : Nat} (hlen : len < 2 ^ 63)
    (hbar : Barrier rules windows width height len) :
    WrapSafe rules windows width height len := by
  intro hdrop k hk
  have hready := readyHandler_ready rules
  have hwhite : (List.replicate len (9 : UInt8)).length = len := List.length_replicate
  have hresult : frameResult (readyHandler rules) width height none windows _ = _ :=
    frameResult_of_not_drop hready hdrop (hwhite.trans_lt hlen)
  have hmem : 4 * k % 2 ^ 64 ∈ offsets width height (excludedRects rules windows) :=
    (mem_offsets_iff _ _ _ _).mpr ⟨k, hk, rfl⟩
  have hnopanic : lastOffset ∉ offsets width height (excludedRects rules windows) := by
    intro hlast
    rw [if_pos hlast] at hresult
    rcases hbar.noninterference _ none _ _ hready hwhite hwhite (fun _ _ _ => rfl) with
      ⟨hd, -⟩ | ⟨frame, he, -⟩
    · rw [hresult] at hd
      cases hd
    · rw [hresult] at he
      cases he
  rw [if_neg hnopanic] at hresult
  have halign : 4 * k % 2 ^ 64 / 4 * 4 = 4 * k % 2 ^ 64 := by omega
  have hle : 4 * k % 2 ^ 64 ≤ 4 * k := Nat.mod_le _ _
  have hexact : 4 * k < 2 ^ 64 → 4 * k % 2 ^ 64 = 4 * k := Nat.mod_eq_of_lt
  generalize 4 * k % 2 ^ 64 = i at hmem halign hle hexact ⊢
  refine ⟨fun hlast => hnopanic (hlast ▸ hmem), fun hfit => ?_⟩
  -- A frame that was cropped has a buffer of exactly its size, so nothing wrapped.
  rcases normalizeEven_cases (shot (readyHandler rules) width height none
    (redacted (offsets width height (excludedRects rules windows)) (List.replicate len 9))) with
    hsame | ⟨hfull, -⟩
  · by_contra hforeign
    rw [hsame] at hresult
    have hw : 0 < width.toNat := Nat.pos_of_mul_pos_right (Nat.zero_lt_of_lt hk.1)
    have hin : i / 4 < width.toNat * height.toNat := by
      have hlt := hk.1
      omega
    have hsplit := Nat.div_add_mod' (i / 4) width.toNat
    have hkept := (hbar.pixels _ none _ _ hready hwhite hresult
      (i / 4 % width.toNat) (Nat.mod_lt _ hw) (i / 4 / width.toNat) (Nat.div_lt_of_lt_mul hin)
      (by simp only [shot, hsplit, redacted_length, List.length_replicate]; omega) 0
      (by decide)).2
    have hbyte : 4 * (i / 4) + 0 = i := by omega
    have hfirst : i % 4 = 0 := by omega
    simp only [shot, hsplit, hforeign, not_false_eq_true, true_implies, redacted,
      List.getElem?_mapIdx, hbyte] at hkept
    rw [List.getElem?_replicate_of_lt (by omega)] at hkept
    simp [halign, hmem, hfit, hfirst, black] at hkept
  · simp only [shot, redacted_length, List.length_replicate] at hfull
    have hself : i / 4 = k := by
      have hlt := hk.1
      have hsmall := hexact (by omega)
      omega
    rwa [hself]

end Barrier

end SolstoneWindows.Proofs.Redaction
