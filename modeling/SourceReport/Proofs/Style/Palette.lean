import Mathlib.Data.Rat.Floor
import Mathlib.Logic.Function.Iterate
import Mathlib.Order.Interval.Set.Basic
import Mathlib.Tactic.Linarith
import SourceReport.Style.Palette

/-!
# What palettes draw

A draw adds to each counter and keeps what is left of it modulo sixteen bits. So only the number of
draws counts for where the counters stand, however often they wrapped around on the way. A color is a
weighted sum of three shares between nothing and one; the weights add up to the last place of the
color cube, and no exact sum lies outside of it.

* `Palette.StandsAt` says that the counters stand where some number of draws brings those of a seed.
* The rational numbers are cut to their whole part by `Nat.floor`, so that a `Palette ℚ` draws with
  exact numbers what a `Palette` draws with floating-point ones.

Results:
* `Palette.StandsAt.iterate_next`: where the counters stand after any number of draws.
* `Palette.draw_eq`: one draw after the other gives the colors of the palettes on the way.
* `Palette.take_add`: colors may be drawn in portions.
* `Palette.color_mem_cube`: with exact numbers, every color lies in the color cube.
* `Palette.take_of_full_floor`: and under a full floor it is the last one of the cube.
* `Palette.draws_of_seed`: all this for the palette of a seed.
-/

namespace SourceReport

instance : WholePart ℚ := ⟨Nat.floor⟩

namespace Palette

/-! ## Counters -/

section Counters

variable {α : Type} {seed : List Int} {n : Nat} {p : Palette α}

theorem cast_wrap (s : Int) : (wrap s : Int) = s % modulus :=
  Int.toNat_of_nonneg (Int.emod_nonneg s (by decide))

/-- A counter may wrap around before a draw or after it. -/
theorem wrap_add_mod (s : Int) (k : Nat) : (wrap s + k) % modulus = wrap (s + k) := by
  refine Int.natCast_inj.1 ?_
  rw [Int.natCast_emod, Int.natCast_add, cast_wrap, cast_wrap, Int.emod_add_emod]

/-- The counters stand where a number of draws brings those of a seed. -/
def StandsAt (seed : List Int) (n : Nat) (p : Palette α) : Prop :=
  p.counters = seed.mapIdx fun i s => wrap (s + n * stride i)

/-- What the counters are then, as numbers that may wrap around. -/
theorem StandsAt.map_counters (h : p.StandsAt seed n) :
    p.counters.map Int.ofNat =
      seed.mapIdx fun i (s : Int) => (s + n * 40503 * (4 * i + 1130)) % 2 ^ 16 := by
  refine (List.mapIdx_eq_iff.2 fun i => ?_).symm
  rw [h, List.getElem?_map, List.getElem?_mapIdx, Option.map_map]
  refine congrArg (Option.map · seed[i]?) (funext fun s => ?_)
  have hstride : (n * stride i : Int) = n * 40503 * (4 * i + 1130) := by
    rw [stride]
    push_cast
    ring
  rw [Function.comp_apply, Int.ofNat_eq_natCast, cast_wrap, hstride]
  rfl

theorem counters_next (p : Palette α) :
    p.next.counters = p.counters.mapIdx fun i c => (c + stride i) % modulus := rfl

theorem lt_modulus_of_mem_counters_next {c : Nat} (h : c ∈ p.next.counters) : c < modulus := by
  rw [counters_next, List.mem_mapIdx] at h
  obtain ⟨i, hi, rfl⟩ := h
  exact Nat.mod_lt _ (by decide)

/-- **One draw** brings the counters one stride further. -/
theorem StandsAt.next (h : p.StandsAt seed n) : p.next.StandsAt seed (n + 1) := by
  rw [StandsAt, counters_next, h, List.mapIdx_mapIdx]
  refine congrArg (List.mapIdx · seed) (funext₂ fun i s => ?_)
  have hstride : s + n * stride i + stride i = s + (n + 1 : Nat) * stride i := by
    rw [Int.natCast_succ, Int.add_mul, Int.one_mul, Int.add_assoc]
  rw [Function.comp_apply, wrap_add_mod, hstride]

/-- **Any number of draws** brings them as many strides further. -/
theorem StandsAt.iterate_next (h : p.StandsAt seed 0) (n : Nat) :
    (Palette.next^[n] p).StandsAt seed n := by
  induction n with
  | zero => exact h
  | succ n ih =>
    rw [Function.iterate_succ_apply']
    exact ih.next

-- By `rfl`, Lean would compare the counters of both palettes first, stride by stride.
@[simp]
theorem floor_next (p : Palette α) : p.next.floor = p.floor := by
  rw [next]

@[simp]
theorem floor_iterate_next (n : Nat) (p : Palette α) : (next^[n] p).floor = p.floor := by
  induction n with
  | zero => rfl
  | succ n ih => rw [Function.iterate_succ_apply', floor_next, ih]

variable [NatCast α] [LT α] [DecidableLT α]

/-- A seed of three numbers has a palette, whatever the floor. -/
theorem exists_ofSeed?_eq_ok (a b c : Int) (floor : α) :
    ∃ p, ofSeed? [a, b, c] floor = .ok p ∧ p.StandsAt [a, b, c] 0 ∧ p.floor = clampUnit floor := by
  refine ⟨_, rfl, ?_, rfl⟩
  simp [StandsAt, counters]

end Counters

/-! ## Draws -/

section Draws

variable {α : Type} [Add α] [Sub α] [Mul α] [Div α] [NatCast α] [WholePart α]

/-- **Draws** give the colors of the palettes on the way, and the last one of these. -/
theorem draw_eq (n : Nat) (p : Palette α) :
    draw n p = ((List.range n).map fun k => (next^[k + 1] p).color, next^[n] p) := by
  induction n generalizing p with
  | zero => rfl
  | succ n ih =>
    simp only [draw, ih, List.range_succ_eq_map, List.map_cons, List.map_map, Function.comp_def,
      Function.iterate_succ_apply next, Function.iterate_zero_apply next]

/-- Draws leave the palette behind that follows as many times. -/
@[simp]
theorem snd_draw (n : Nat) (p : Palette α) : (draw n p).2 = next^[n] p := by
  rw [draw_eq]

theorem take_eq (n : Nat) (p : Palette α) :
    take n p = (List.range n).map fun k => (next^[k + 1] p).color := by
  rw [take, draw_eq]

/-- **Colors may be drawn in portions.** -/
theorem take_add (m n : Nat) (p : Palette α) :
    take (m + n) p = take m p ++ take n (draw m p).2 := by
  rw [take_eq, take_eq, take_eq, snd_draw, List.range_add, List.map_append, List.map_map]
  refine congrArg (List.map _ _ ++ ·) (List.map_congr_left fun k _ => ?_)
  have hdraws : k + 1 + m = m + k + 1 := by omega
  rw [Function.comp_apply, ← Function.iterate_add_apply, hdraws]

theorem exists_of_mem_take {n color : Nat} {p : Palette α} (h : color ∈ take n p) :
    ∃ k, (next^[k] p).next.color = color := by
  rw [take_eq, List.mem_map] at h
  obtain ⟨k, -, rfl⟩ := h
  exact ⟨k, by rw [Function.iterate_succ_apply']⟩

end Draws

/-! ## Exact colors -/

section Exact

variable {p : Palette ℚ}

theorem clampUnit_eq (x : ℚ) : clampUnit x = min 1 (max 0 x) := by
  have hraised : (if (0 : ℚ) > x then 0 else x) = max 0 x := by
    split_ifs with h
    · exact (max_eq_left h.le).symm
    · exact (max_eq_right (not_lt.1 h)).symm
  have hlowered (y : ℚ) : (if 1 < y then 1 else y) = min 1 y := by
    split_ifs with h
    · exact (min_eq_left h.le).symm
    · exact (min_eq_right (not_lt.1 h)).symm
  rw [clampUnit, Nat.cast_zero, Nat.cast_one, hraised, hlowered]

theorem clampUnit_mem (x : ℚ) : clampUnit x ∈ Set.Icc (0 : ℚ) 1 := by
  rw [clampUnit_eq]
  exact ⟨le_min zero_le_one (le_max_left 0 x), min_le_left 1 _⟩

/-- A channel stays between nothing and one. -/
theorem channel_mem {floor : ℚ} (hfloor : floor ∈ Set.Icc (0 : ℚ) 1) {counter : Nat}
    (hcounter : counter < modulus) : channel floor counter ∈ Set.Icc (0 : ℚ) 1 := by
  have hroom : 0 ≤ 1 - floor := sub_nonneg.2 hfloor.2
  have hle : (counter : ℚ) ≤ 65535 := Nat.cast_le_ofNat.2 (Nat.le_of_lt_succ hcounter)
  have hshare : (counter : ℚ) / 65535 ≤ 1 := (div_le_one (by norm_num)).2 hle
  rw [channel, Nat.cast_ofNat, Nat.cast_one]
  constructor
  · exact add_nonneg (mul_nonneg (by positivity) hroom) hfloor.1
  · calc (counter : ℚ) / 65535 * (1 - floor) + floor
      _ ≤ 1 * (1 - floor) + floor := by gcongr
      _ = 1 := by ring

/-- The weights of the channels add up to the last place of the cube. -/
theorem blend_mem {floor : ℚ} (hfloor : floor ∈ Set.Icc (0 : ℚ) 1) {first second third : Nat}
    (hfirst : first < modulus) (hsecond : second < modulus) (hthird : third < modulus) :
    blend floor first second third ∈ Set.Icc (0 : ℚ) 215 := by
  obtain ⟨hfirst, hfirst'⟩ := channel_mem hfloor hfirst
  obtain ⟨hsecond, hsecond'⟩ := channel_mem hfloor hsecond
  obtain ⟨hthird, hthird'⟩ := channel_mem hfloor hthird
  rw [blend, Nat.cast_ofNat, Nat.cast_ofNat, Nat.cast_ofNat]
  constructor <;> linarith

/-- **Colors lie in the color cube.** -/
theorem color_mem_cube (hfloor : p.floor ∈ Set.Icc (0 : ℚ) 1)
    (hcounters : ∀ c ∈ p.counters, c < modulus) : 16 ≤ p.color ∧ p.color ≤ 231 := by
  simp only [counters, List.forall_mem_cons] at hcounters
  obtain ⟨hfirst, hsecond, hthird, -⟩ := hcounters
  have hblend := blend_mem hfloor hfirst hsecond hthird
  have hwhole : WholePart.whole (blend p.floor p.first p.second p.third) ≤ 215 :=
    Nat.floor_le_of_le hblend.2
  rw [color]
  omega

theorem mem_cube_of_mem_take {n color : Nat} (hfloor : p.floor ∈ Set.Icc (0 : ℚ) 1)
    (h : color ∈ take n p) : 16 ≤ color ∧ color ≤ 231 := by
  obtain ⟨k, rfl⟩ := exists_of_mem_take h
  refine color_mem_cube ?_ fun c => lt_modulus_of_mem_counters_next
  rwa [floor_next, floor_iterate_next]

/-- **Under a full floor** there is one color left, the last one of the cube. -/
theorem take_of_full_floor (hfloor : p.floor = 1) (n : Nat) : take n p = List.replicate n 231 := by
  have hchannel (counter : Nat) : channel (1 : ℚ) counter = 1 := by
    rw [channel, Nat.cast_one, sub_self, mul_zero, zero_add]
  have hblend (first second third : Nat) : blend (1 : ℚ) first second third = (215 : Nat) := by
    rw [blend, hchannel, hchannel, hchannel]
    norm_num
  refine List.eq_replicate_iff.2 ⟨by rw [take_eq, List.length_map, List.length_range], ?_⟩
  intro color hcolor
  obtain ⟨k, rfl⟩ := exists_of_mem_take hcolor
  rw [Palette.color, floor_next, floor_iterate_next, hfloor, hblend]
  exact congrArg (16 + ·) (Nat.floor_natCast 215)

end Exact

/-- **The palette of a seed.** After any number of draws each counter is the one of the seed and as
many strides, modulo sixteen bits. The colors drawn are those of the places where the counters come
to, and drawn in portions they are the same. Over exact numbers, with any floor brought into the unit
interval, every color has an index of the color cube. -/
theorem draws_of_seed {α : Type} [Add α] [Sub α] [Mul α] [Div α] [NatCast α] [LT α] [DecidableLT α]
    [WholePart α] (a b c : Int) (floor : α) (exactFloor : ℚ) :
    (∃ p, ofSeed? [a, b, c] floor = .ok p ∧
      (∀ n : Nat, (draw n p).2.counters.map Int.ofNat =
        [a, b, c].mapIdx fun i (s : Int) => (s + n * 40503 * (4 * i + 1130)) % 2 ^ 16) ∧
      (∀ n, take n p = (List.range n).map fun k => (draw (k + 1) p).2.color) ∧
      ∀ m n, take (m + n) p = take m p ++ take n (draw m p).2) ∧
    ∃ p, ofSeed? [a, b, c] exactFloor = .ok p ∧ p.floor = min 1 (max 0 exactFloor) ∧
      ∀ n, ∀ color ∈ take n p, 16 ≤ color ∧ color ≤ 231 := by
  obtain ⟨p, hp, hstands, -⟩ := exists_ofSeed?_eq_ok a b c floor
  obtain ⟨q, hq, -, hfloor⟩ := exists_ofSeed?_eq_ok a b c exactFloor
  refine ⟨⟨p, hp, fun n => ?_, fun n => ?_, fun m n => take_add m n p⟩,
    ⟨q, hq, hfloor.trans (clampUnit_eq exactFloor), fun n color hcolor => ?_⟩⟩
  · rw [snd_draw]
    exact (hstands.iterate_next n).map_counters
  · simp only [take_eq, snd_draw]
  · exact mem_cube_of_mem_take (hfloor ▸ clampUnit_mem exactFloor) hcolor

/-- The first color of the usual palette, and where its counters stand then. -/
theorem draws_of_seed_usual :
    ∃ p : Palette ℚ, ofSeed? [30000, 15000, 35000] (1 / 2) = .ok p ∧
      (draw 1 p).2.counters.map Int.ofNat = [54262, 4666, 55606] ∧
      201 ∈ take 1 p ∧ 16 ≤ 201 ∧ 201 ≤ 231 := by
  obtain ⟨⟨p, hp, hcounters, -, -⟩, q, hq, -, hcube⟩ :=
    draws_of_seed 30000 15000 35000 (1 / 2 : ℚ) (1 / 2)
  obtain rfl : p = q := Except.ok.inj (hp.symm.trans hq)
  have hcolor : 201 ∈ take 1 p := by
    cases hp
    decide +kernel
  exact ⟨p, hp, hcounters 1, hcolor, hcube 1 201 hcolor⟩

end Palette

end SourceReport
