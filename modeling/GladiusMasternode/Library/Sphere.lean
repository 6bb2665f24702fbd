import Mathlib.Analysis.InnerProductSpace.PiL2
import Mathlib.Geometry.Euclidean.Angle.Unoriented.Basic
/-!
# Directions on a sphere

A latitude and a longitude, in radians, give a direction from the centre. The central angle of two
directions is the length of the great-circle arc between them on the unit sphere; it grows with the
straight chord, so ranking by either is the same.
-/

namespace Sphere

open Real InnerProductGeometry

/-- The vector with these coordinates. -/
def vec (x y z : ℝ) : EuclideanSpace ℝ (Fin 3) := !₂[x, y, z]

theorem vec_sub_vec (x y z x' y' z' : ℝ) :
    vec x y z - vec x' y' z' = vec (x - x') (y - y') (z - z') := by
  ext dim
  fin_cases dim <;> rfl

theorem smul_vec (r x y z : ℝ) : r • vec x y z = vec (r * x) (r * y) (r * z) := by
  ext dim
  fin_cases dim <;> rfl

theorem inner_vec (x y z x' y' z' : ℝ) :
    inner ℝ (vec x y z) (vec x' y' z') = x * x' + y * y' + z * z' := by
  rw [vec, vec, EuclideanSpace.inner_eq_star_dotProduct]
  simp only [dotProduct, Fin.sum_univ_three]
  simp [mul_comm]

theorem norm_sq_vec (x y z : ℝ) : ‖vec x y z‖ ^ 2 = x * x + y * y + z * z := by
  rw [← real_inner_self_eq_norm_sq, inner_vec]

/-- The unit vector of a latitude and a longitude. -/
noncomputable def direction (lat long : ℝ) : EuclideanSpace ℝ (Fin 3) :=
  vec (cos lat * cos long) (cos lat * sin long) (sin lat)

variable {lat long lat' long' : ℝ}

/-- The spherical law of cosines. -/
theorem inner_direction : inner ℝ (direction lat long) (direction lat' long') =
    sin lat * sin lat' + cos lat * cos lat' * cos (long - long') := by
  rw [direction, direction, inner_vec, cos_sub]
  ring

theorem norm_direction (lat long : ℝ) : ‖direction lat long‖ = 1 := by
  have hsq : ‖direction lat long‖ ^ 2 = 1 := by
    rw [← real_inner_self_eq_norm_sq, inner_direction, sub_self, cos_zero, mul_one]
    linarith [sin_sq_add_cos_sq lat]
  exact (pow_eq_one_iff_of_nonneg (norm_nonneg _) two_ne_zero).1 hsq

noncomputable def centralAngle (lat long lat' long' : ℝ) : ℝ :=
  angle (direction lat long) (direction lat' long')

theorem cos_centralAngle : cos (centralAngle lat long lat' long') =
    sin lat * sin lat' + cos lat * cos lat' * cos (long - long') := by
  rw [centralAngle, cos_angle, norm_direction, norm_direction, inner_direction, mul_one, div_one]

theorem centralAngle_eq_arccos : centralAngle lat long lat' long' =
    arccos (sin lat * sin lat' + cos lat * cos lat' * cos (long - long')) := by
  rw [← cos_centralAngle]
  exact (arccos_cos (angle_nonneg _ _) (angle_le_pi _ _)).symm

/-- The square of the chord between two points of a sphere of radius `r`. -/
theorem norm_sub_sq_direction (r : ℝ) :
    ‖r • direction lat long - r • direction lat' long'‖ ^ 2 =
      2 * r ^ 2 * (1 - cos (centralAngle lat long lat' long')) := by
  rw [← smul_sub, norm_smul, mul_pow, Real.norm_eq_abs, sq_abs, norm_sub_sq_real, norm_direction,
    norm_direction, inner_direction, ← cos_centralAngle]
  ring

/-- The shorter arc has the larger cosine. -/
theorem centralAngle_le_iff {lat₀ long₀ : ℝ} :
    centralAngle lat₀ long₀ lat long ≤ centralAngle lat₀ long₀ lat' long' ↔
      cos (centralAngle lat₀ long₀ lat' long') ≤ cos (centralAngle lat₀ long₀ lat long) := by
  have hmem : ∀ lat long, centralAngle lat₀ long₀ lat long ∈ Set.Icc 0 π :=
    fun lat long => ⟨angle_nonneg _ _, angle_le_pi _ _⟩
  exact (strictAntiOn_cos.le_iff_ge (hmem _ _) (hmem _ _)).symm

end Sphere
