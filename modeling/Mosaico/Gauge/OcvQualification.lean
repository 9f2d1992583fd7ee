import Mosaico.Gauge.OcvDiagnosticModel
import Mathlib.Order.Defs.LinearOrder

/-! What a qualification that has not failed says of all the samples it has seen. -/
namespace Mosaico.Gauge.OcvDiagnostic

/-- A sample with the clock after it. Lists of readings are the newest first. -/
abbrev Reading := Sample × Int

def Close (channel : Sample → Int) (bound : Int) (readings : List Reading) : Prop :=
  ∀ x ∈ readings, ∀ y ∈ readings, channel x.1 - channel y.1 ≤ bound

/-- The conditions that the diagnostic wants to see held. -/
structure Steady (readings : List Reading) : Prop where
  eligible : ∀ x ∈ readings, eligible x.1 = true
  paced : readings.IsChain fun newer older => older.2 ≤ newer.2 ∧ newer.2 - older.2 ≤ 2500000
  voltage : Close (fun s => s.voltageMv.toNat) 10 readings
  temperature : Close (fun s => s.temperatureDeciK.toNat) 5 readings
  current : Close (fun s => s.currentMa.toInt) 2 readings
  average : Close (fun s => s.averageMa.toInt) 2 readings

def Within (channel : Sample → Int) (lo hi : Int) (readings : List Reading) : Prop :=
  ∀ x ∈ readings, lo ≤ channel x.1 ∧ channel x.1 ≤ hi

variable {channel : Sample → Int} {lo hi lo' hi' : Int} {readings : List Reading} {s : Sample} {now : Int}

theorem Within.close (h : Within channel lo hi readings) {bound : Int} (narrow : hi - lo ≤ bound) :
    Close channel bound readings := by
  intro x hx y hy
  have upper := (h x hx).2
  have lower := (h y hy).1
  omega

theorem Within.cons (h : Within channel lo hi readings) (lower : lo' ≤ lo ∧ lo' ≤ channel s)
    (upper : hi ≤ hi' ∧ channel s ≤ hi') : Within channel lo' hi' ((s, now) :: readings) := by
  intro x hx
  rcases List.mem_cons.mp hx with rfl | old
  · exact ⟨lower.2, upper.2⟩
  · exact ⟨Int.le_trans lower.1 (h x old).1, Int.le_trans (h x old).2 upper.1⟩

theorem within_one (channel : Sample → Int) (s : Sample) (now : Int) :
    Within channel (channel s) (channel s) [(s, now)] := by
  intro x hx
  rw [List.mem_singleton.mp hx]
  exact ⟨Int.le_refl _, Int.le_refl _⟩

private theorem lower_word (v m : UInt16) :
    (((if v < m then v else m).toNat : Int)) ≤ m.toNat ∧ ((if v < m then v else m).toNat : Int) ≤ v.toNat := by
  split
  · rename_i below
    have := UInt16.lt_iff_toNat_lt.mp below
    omega
  · rename_i above
    have := Nat.not_lt.mp fun h => above (UInt16.lt_iff_toNat_lt.mpr h)
    omega

private theorem upper_word (v m : UInt16) :
    (m.toNat : Int) ≤ (if m < v then v else m).toNat ∧ (v.toNat : Int) ≤ (if m < v then v else m).toNat := by
  split
  · rename_i above
    have := UInt16.lt_iff_toNat_lt.mp above
    omega
  · rename_i below
    have := Nat.not_lt.mp fun h => below (UInt16.lt_iff_toNat_lt.mpr h)
    omega

private theorem lower_signed (v m : Int16) :
    (if v < m then v else m).toInt ≤ m.toInt ∧ (if v < m then v else m).toInt ≤ v.toInt := by
  split
  · rename_i below
    have := Int16.lt_iff_toInt_lt.mp below
    omega
  · rename_i above
    have := Int.not_lt.mp fun h => above (Int16.lt_iff_toInt_lt.mpr h)
    omega

private theorem upper_signed (v m : Int16) :
    m.toInt ≤ (if m < v then v else m).toInt ∧ v.toInt ≤ (if m < v then v else m).toInt := by
  split
  · rename_i above
    have := Int16.lt_iff_toInt_lt.mp above
    omega
  · rename_i below
    have := Int.not_lt.mp fun h => below (Int16.lt_iff_toInt_lt.mpr h)
    omega

/-- The qualification knows the extremes and the ends of the readings. -/
structure Tracked (q : Qualification) (readings : List Reading) : Prop where
  sound : q.failed = false
  steady : Steady readings
  started : q.started = true ↔ readings ≠ []
  last : ∀ x ∈ readings.head?, x.2 = q.lastUs
  first : ∀ x ∈ readings.getLast?, x.2 = q.firstUs
  voltage : Within (fun s => s.voltageMv.toNat) q.minMv.toNat q.maxMv.toNat readings
  temperature : Within (fun s => s.temperatureDeciK.toNat) q.minTemp.toNat q.maxTemp.toNat readings
  current : Within (fun s => s.currentMa.toInt) q.minCurrent.toInt q.maxCurrent.toInt readings
  average : Within (fun s => s.averageMa.toInt) q.minAverage.toInt q.maxAverage.toInt readings

theorem tracked_nil : Tracked {} [] where
  sound := rfl
  steady := ⟨nofun, .nil, nofun, nofun, nofun, nofun⟩
  started := by simp
  last := nofun
  first := nofun
  voltage := nofun
  temperature := nofun
  current := nofun
  average := nofun

variable {q : Qualification}

theorem range_within (h : Tracked q readings) (s : Sample) (now : Int) :
    Within (fun s => s.voltageMv.toNat) (q.range s now).minMv.toNat (q.range s now).maxMv.toNat
      ((s, now) :: readings) ∧
    Within (fun s => s.temperatureDeciK.toNat) (q.range s now).minTemp.toNat (q.range s now).maxTemp.toNat
      ((s, now) :: readings) ∧
    Within (fun s => s.currentMa.toInt) (q.range s now).minCurrent.toInt (q.range s now).maxCurrent.toInt
      ((s, now) :: readings) ∧
    Within (fun s => s.averageMa.toInt) (q.range s now).minAverage.toInt (q.range s now).maxAverage.toInt
      ((s, now) :: readings) := by
  unfold Qualification.range
  split
  · rename_i fresh
    have none : readings = [] := by
      by_contra some
      rw [h.started.mpr some] at fresh
      cases fresh
    rw [none]
    exact ⟨within_one _ s now, within_one _ s now, within_one _ s now, within_one _ s now⟩
  · exact ⟨h.voltage.cons (lower_word _ _) (upper_word _ _), h.temperature.cons (lower_word _ _) (upper_word _ _),
      h.current.cons (lower_signed _ _) (upper_signed _ _), h.average.cons (lower_signed _ _) (upper_signed _ _)⟩

theorem range_started (q : Qualification) (s : Sample) (now : Int) : (q.range s now).started = true := by
  unfold Qualification.range
  split
  · rfl
  · rename_i old
    simpa using old

theorem range_failed (q : Qualification) (s : Sample) (now : Int) : (q.range s now).failed = q.failed := by
  unfold Qualification.range
  split <;> rfl

theorem range_firstUs (h : Tracked q readings) (s : Sample) (now : Int) :
    ∀ x ∈ ((s, now) :: readings).getLast?, x.2 = (q.range s now).firstUs := by
  intro x hx
  unfold Qualification.range
  split
  · rename_i fresh
    have none : readings = [] := by
      by_contra some
      rw [h.started.mpr some] at fresh
      cases fresh
    rw [none] at hx
    cases hx
    rfl
  · rename_i old
    have some : readings ≠ [] := h.started.mp (by simpa using old)
    obtain ⟨y, rest, rfl⟩ := List.exists_cons_of_ne_nil some
    rw [List.getLast?_cons_cons] at hx
    exact h.first x hx

/-- What a sample that the qualification accepts adds. -/
theorem tracked_sample (h : Tracked q readings) (held : (q.sample s now).2 = true) :
    Tracked (q.sample s now).1 ((s, now) :: readings) := by
  unfold Qualification.sample at held ⊢
  rw [if_neg (by simp [h.sound])] at held ⊢
  split at held
  · cases held
  · rename_i fit
    rw [if_neg fit]
    simp only [not_or, not_and, Bool.not_eq_false, Int.not_lt] at fit
    obtain ⟨-, fits, paced⟩ := fit
    dsimp only at held ⊢
    split at held
    · cases held
    · rename_i narrow
      rw [if_neg narrow]
      obtain ⟨voltage, temperature, current, average⟩ := range_within h s now
      simp only [Qualification.wide, Bool.or_eq_true, decide_eq_true_eq, not_or, Int.not_lt, gt_iff_lt] at narrow
      obtain ⟨⟨⟨volts, temps⟩, currents⟩, averages⟩ := narrow
      refine ⟨(range_failed q s now).trans h.sound, ⟨?_, ?_, voltage.close volts, temperature.close temps,
        current.close currents, average.close averages⟩, ?_, ?_, range_firstUs h s now, voltage, temperature, current,
        average⟩
      · intro x hx
        rcases List.mem_cons.mp hx with rfl | old
        · exact fits
        · exact h.steady.eligible x old
      · cases readings with
        | nil => exact .singleton _
        | cons x rest =>
          have step := paced (h.started.mpr (List.cons_ne_nil _ _))
          rw [← h.last x rfl] at step
          exact .cons_cons step h.steady.paced
      · simp [range_started]
      · intro x hx
        cases hx
        rfl

def Spans (us : Int) (readings : List Reading) : Prop :=
  ∃ first last, readings.getLast? = some first ∧ readings.head? = some last ∧ us ≤ last.2 - first.2

theorem spans_of_ready (h : Tracked q ((s, now) :: readings)) (ready : q.ready now = true) :
    Spans 120000000 ((s, now) :: readings) := by
  obtain ⟨first, eq⟩ : ∃ first, ((s, now) :: readings).getLast? = some first :=
    ⟨_, List.getLast?_eq_some_getLast (List.cons_ne_nil _ _)⟩
  refine ⟨first, (s, now), eq, rfl, ?_⟩
  rw [h.first first eq]
  simp only [Qualification.ready, durationUs, Bool.and_eq_true, decide_eq_true_eq] at ready
  exact of_decide_eq_true ready.2

end Mosaico.Gauge.OcvDiagnostic
