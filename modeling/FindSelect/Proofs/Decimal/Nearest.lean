import FindSelect.Proofs.Decimal.Rounding

namespace FindSelect.Binary64

/-- The magnitude that is nearest to a number among all of them up to infinity, and the even one
    where two are equally near. Infinity counts as the number that would follow the largest finite
    one, so it is nearest from the halfway point to that number on. -/
structure IsNearest (x : ℚ) (magnitude : Nat) : Prop where
  le_infinite : magnitude ≤ infinite
  nearest : ∀ n ≤ infinite, |x - valueOf magnitude| ≤ |x - valueOf n|
  even : ∀ n ≤ infinite, n ≠ magnitude → |x - valueOf magnitude| = |x - valueOf n| →
    magnitude % 2 = 0

/-- The halfway point is the midpoint between two numbers. -/
theorem halfway_eq (n : Nat) : halfway n = (valueOf n + valueOf (n + 1)) / 2 := by
  rw [valueOf_succ, valueOf, halfway]
  ring

section Distance

variable {x a b : ℚ}

/-- Of two numbers the lower one is nearer exactly below their midpoint. -/
theorem abs_sub_lt_abs_sub_iff (h : a < b) : |x - a| < |x - b| ↔ x < (a + b) / 2 := by
  have hsquares : (x - b) ^ 2 - (x - a) ^ 2 = (b - a) * (a + b - 2 * x) := by ring
  rw [← sq_lt_sq, ← sub_pos, hsquares, mul_pos_iff_of_pos_left (sub_pos.2 h), sub_pos,
    lt_div_iff₀' two_pos]

/-- Of two numbers the larger is nearer to what lies above their midpoint. -/
theorem abs_sub_gt_abs_sub_iff (h : a < b) : |x - b| < |x - a| ↔ (a + b) / 2 < x := by
  have hsquares : (x - a) ^ 2 - (x - b) ^ 2 = (b - a) * (2 * x - (a + b)) := by ring
  rw [← sq_lt_sq, ← sub_pos, hsquares, mul_pos_iff_of_pos_left (sub_pos.2 h), sub_pos,
    div_lt_iff₀' two_pos]

theorem abs_sub_midpoint (h : x = (a + b) / 2) : |x - a| = |x - b| := by
  have hopposite : x - a = -(x - b) := by
    rw [h]
    ring
  rw [hopposite, abs_neg]

end Distance

section Distances

variable {x : ℚ} {m n : Nat}

/-- What is rounded to a magnitude or one below it is so for a larger magnitude. -/
theorem Within.mono (h : Within x m) (hle : m ≤ n) : Within x n := by
  rcases hle.eq_or_lt with rfl | hlt
  · exact h
  · have hnext : valueOf (m + 1) ≤ valueOf n := valueOf_strictMono.monotone hlt
    have hbelow : halfway m < valueOf (m + 1) := halfway_lt_valueOf m
    have habove : valueOf n < halfway n := valueOf_lt_halfway n
    apply within_of_lt
    linarith [h.le]

/-- A number within a magnitude is nearer to it than to any above, but for one halfway to the next
    magnitude, where the lower one is even. -/
theorem Within.distance_lt_or (h : Within x m) (hlt : m < n) :
    |x - valueOf m| < |x - valueOf n| ∨
      n = m + 1 ∧ |x - valueOf m| = |x - valueOf n| ∧ m % 2 = 0 := by
  have hvalue : valueOf m < valueOf n := valueOf_strictMono hlt
  have hhalf := halfway_eq m
  rcases (Nat.succ_le_of_lt hlt).lt_or_eq with hfar | rfl
  · have hnext : valueOf (m + 1) < valueOf n := valueOf_strictMono hfar
    left
    rw [abs_sub_lt_abs_sub_iff hvalue]
    linarith [h.le]
  · rcases h.le.lt_or_eq with hx | hx
    · left
      rw [abs_sub_lt_abs_sub_iff hvalue]
      linarith
    · refine .inr ⟨rfl, abs_sub_midpoint (hx.trans hhalf), ?_⟩
      by_contra hodd
      rw [Within, if_neg hodd] at h
      linarith

/-- A number beyond a magnitude is nearer to the next one than to any below it, but for one halfway
    to it, where the upper one is even. -/
theorem distance_lt_or_of_not_within (h : ¬ Within x m) (hle : n ≤ m) :
    |x - valueOf (m + 1)| < |x - valueOf n| ∨
      n = m ∧ |x - valueOf (m + 1)| = |x - valueOf n| ∧ (m + 1) % 2 = 0 := by
  have hvalue : valueOf n < valueOf (m + 1) := valueOf_strictMono (Nat.lt_succ_of_le hle)
  have hhalf := halfway_eq m
  have hbeyond : halfway m ≤ x := by
    by_contra hx
    exact h (within_of_lt (not_le.1 hx))
  rcases hle.lt_or_eq with hfar | rfl
  · have hbelow : valueOf n < valueOf m := valueOf_strictMono hfar
    left
    rw [abs_sub_gt_abs_sub_iff hvalue]
    linarith
  · rcases hbeyond.lt_or_eq with hx | hx
    · left
      rw [abs_sub_gt_abs_sub_iff hvalue]
      linarith
    · refine .inr ⟨rfl, (abs_sub_midpoint (hx.symm.trans hhalf)).symm, ?_⟩
      by_contra hodd
      rw [Within, if_pos (by omega)] at h
      exact h hx.ge

end Distances

/-- A magnitude is nearest to a number exactly if it is the first within which the number lies. -/
theorem isNearest_iff {x : ℚ} {magnitude : Nat} : IsNearest x magnitude ↔
    magnitude ≤ infinite ∧ ∀ n < infinite, Within x n ↔ magnitude ≤ n := by
  constructor
  · intro h
    refine ⟨h.le_infinite, ?_⟩
    intro n hn
    constructor
    · intro hwithin
      by_contra hlt
      rw [not_le] at hlt
      rcases hwithin.distance_lt_or hlt with hnearer | ⟨hnext, htie, heven⟩
      · exact absurd (h.nearest n hn.le) (not_le.2 hnearer)
      · have := h.even n hn.le hlt.ne htie.symm
        omega
    · intro hle
      by_contra hbeyond
      rcases distance_lt_or_of_not_within hbeyond hle with hnearer | ⟨hlast, htie, heven⟩
      · exact absurd (h.nearest (n + 1) hn) (not_le.2 hnearer)
      · have := h.even (n + 1) hn (by omega) htie.symm
        omega
  · rintro ⟨hinfinite, hwithin⟩
    -- Against each other magnitude this one is nearer, or equally near and even.
    have hcompare : ∀ n ≤ infinite, n ≠ magnitude → |x - valueOf magnitude| < |x - valueOf n| ∨
        |x - valueOf magnitude| = |x - valueOf n| ∧ magnitude % 2 = 0 := by
      intro n hn hne
      rcases Nat.lt_or_gt_of_ne hne with hlt | hgt
      · obtain ⟨last, rfl⟩ : ∃ last, magnitude = last + 1 := ⟨magnitude - 1, by omega⟩
        have hbeyond : ¬ Within x last := by
          rw [hwithin last hinfinite]
          omega
        exact (distance_lt_or_of_not_within hbeyond (Nat.le_of_lt_succ hlt)).imp_right And.right
      · have hfirst : Within x magnitude := (hwithin magnitude (hgt.trans_le hn)).2 le_rfl
        exact (hfirst.distance_lt_or hgt).imp_right And.right
    refine ⟨hinfinite, ?_, ?_⟩
    · intro n hn
      by_cases hne : n = magnitude
      · rw [hne]
      · rcases hcompare n hn hne with hlt | ⟨heq, -⟩
        · exact hlt.le
        · exact heq.le
    · intro n hn hne heq
      rcases hcompare n hn hne with hlt | ⟨-, heven⟩
      · exact absurd heq hlt.ne
      · exact heven

/-- Every number has a magnitude that is nearest to it. -/
theorem exists_isNearest (x : ℚ) : ∃ magnitude, IsNearest x magnitude := by
  classical
  have hexists : ∃ n, infinite ≤ n ∨ Within x n := ⟨infinite, .inl le_rfl⟩
  refine ⟨Nat.find hexists, isNearest_iff.2 ⟨Nat.find_le (.inl le_rfl), ?_⟩⟩
  intro n hn
  constructor
  · intro hwithin
    exact Nat.find_le (.inr hwithin)
  · intro hle
    rcases Nat.find_spec hexists with hlarge | hwithin
    · omega
    · exact hwithin.mono hle

/-- Reading a decimal rounds it to the nearest magnitude, with ties to even. -/
theorem magnitudeOf_eq_iff {d : Decimal} {magnitude : Nat} :
    magnitudeOf d = magnitude ↔ IsNearest d.value magnitude := by
  have hround {n : Nat} (h : IsNearest d.value n) : magnitudeOf d = n := by
    obtain ⟨hinfinite, hwithin⟩ := isNearest_iff.1 h
    rw [Decimal.value_eq_div] at hwithin
    rw [magnitudeOf_eq_nearest]
    exact nearest_eq (by positivity) hinfinite hwithin
  refine ⟨?_, hround⟩
  rintro rfl
  obtain ⟨n, hn⟩ := exists_isNearest d.value
  rw [hround hn]
  exact hn

end FindSelect.Binary64
