import Mosaico.Library.PageDevice

/-! Runs of a page program in which no call fails. The other hardware has a state of its own
and answers as `works` says; what is proved of every such run holds of an operation whose
weather is clear, and every program has such a weather. -/
namespace PageDevice

open Interaction

variable {P H γ α β : Type} {A : H → Type} {works : (h : H) → γ → A h → γ → Prop}

/-- What a call does that does not fail. -/
def working (works : (h : H) → γ → A h → γ → Prop) : Behaviour (Call P H) (Answer A) (Device P × γ)
  | .read page, s, r, s' => r = some (s.1.view page) ∧ s' = s
  | .write page data, s, r, s' => r = true ∧ s' = (s.1.write page data, s.2)
  | .sync, s, r, s' => r = true ∧ s' = (s.1.flush, s.2)
  | .deinit, s, r, s' => r = true ∧ ∃ m, s.1.Survives m ∧ s' = (s.1.restart m, s.2)
  | .host h, s, r, s' => works h s.2 r s'.2 ∧ s'.1 = s.1

/-- Every run in which no call fails ends in `post`. -/
def Delivers (works : (h : H) → γ → A h → γ → Prop) (program : PageProg P H A α)
    (post : α → Device P → γ → Prop) (d : Device P) (g : γ) : Prop :=
  program.wp (working works) (fun a s => post a s.1 s.2) (fun _ => True) (d, g)

theorem faulty_of_working {c : Call P H} {s s' : Device P × γ} {r : Answer A c}
    (h : working works c s r s') : faulty c s.1 r s'.1 := by
  cases c with
  | read page =>
    obtain ⟨answer, same⟩ := h
    exact ⟨congrArg Prod.fst same, .inr answer⟩
  | write page data => exact .inl (congrArg Prod.fst h.2)
  | sync => exact .inl (congrArg Prod.fst h.2)
  | deinit =>
    obtain ⟨-, m, left, same⟩ := h
    exact .inl ⟨m, left, congrArg Prod.fst same⟩
  | host h' => exact h.2

section Rules

variable {post post' : α → Device P → γ → Prop} {d : Device P} {g : γ}

/-- What holds of every run of a faulty device holds of those that do not fail. -/
theorem Delivers.of_faulty {program : PageProg P H A α} {after : α → Device P → Prop} {inv : Device P → Prop}
    (h : program.wp faulty after inv d) : Delivers works program (fun a d' _ => after a d') d g := by
  unfold Delivers
  induction program generalizing d g with
  | done value => exact h
  | call c next ih =>
    intro r s' step
    exact ⟨trivial, ih r (h r s'.1 (faulty_of_working step)).2⟩

theorem Delivers.mono {program : PageProg P H A α} (h : Delivers works program post d g)
    (implies : ∀ a d' g', post a d' g' → post' a d' g') : Delivers works program post' d g :=
  Prog.wp_mono h (fun a s => implies a s.1 s.2) fun _ => id

theorem Delivers.and {program : PageProg P H A α} (first : Delivers works program post d g)
    (second : Delivers works program post' d g) :
    Delivers works program (fun a d' g' => post a d' g' ∧ post' a d' g') d g :=
  Prog.wp_mono (Prog.wp_and first second) (fun _ _ => id) fun _ _ => trivial

theorem Delivers.bind {program : PageProg P H A α} {next : α → PageProg P H A β}
    {after : β → Device P → γ → Prop} (first : Delivers works program post d g)
    (rest : ∀ a d' g', post a d' g' → Delivers works (next a) after d' g') :
    Delivers works (program >>= next) after d g :=
  Prog.wp_bind first fun a s => rest a s.1 s.2

theorem delivers_readPage {page : Nat} {next : Option P → PageProg P H A β}
    {after : β → Device P → γ → Prop} :
    Delivers works (readPage page >>= next) after d g ↔
      Delivers works (next (some (d.view page))) after d g := by
  constructor
  · intro h
    exact (h _ (d, g) ⟨rfl, rfl⟩).2
  · rintro h r s' ⟨rfl, rfl⟩
    exact ⟨trivial, h⟩

theorem delivers_writePage {page : Nat} {data : P} {next : Bool → PageProg P H A β}
    {after : β → Device P → γ → Prop} :
    Delivers works (writePage page data >>= next) after d g ↔
      Delivers works (next true) after (d.write page data) g := by
  constructor
  · intro h
    exact (h _ (d.write page data, g) ⟨rfl, rfl⟩).2
  · rintro h r s' ⟨rfl, rfl⟩
    exact ⟨trivial, h⟩

theorem delivers_sync {next : Bool → PageProg P H A β} {after : β → Device P → γ → Prop} :
    Delivers works (sync >>= next) after d g ↔ Delivers works (next true) after d.flush g := by
  constructor
  · intro h
    exact (h _ (d.flush, g) ⟨rfl, rfl⟩).2
  · rintro h r s' ⟨rfl, rfl⟩
    exact ⟨trivial, h⟩

theorem delivers_deinit {next : Bool → PageProg P H A β} {after : β → Device P → γ → Prop} :
    Delivers works (deinit >>= next) after d g ↔
      ∀ m, d.Survives m → Delivers works (next true) after (d.restart m) g := by
  constructor
  · intro h m left
    exact (h _ (d.restart m, g) ⟨rfl, m, left, rfl⟩).2
  · rintro h r s' ⟨rfl, m, left, rfl⟩
    exact ⟨trivial, h m left⟩

theorem delivers_host {h : H} {next : A h → PageProg P H A β} {after : β → Device P → γ → Prop} :
    Delivers works (host h >>= next) after d g ↔
      ∀ r g', works h g r g' → Delivers works (next r) after d g' := by
  constructor
  · intro all r g' answer
    exact (all r (d, g') ⟨answer, rfl⟩).2
  · rintro all r ⟨d', g'⟩ ⟨answer, rfl⟩
    exact ⟨trivial, all r g' answer⟩

end Rules

/-- No call of the program fails on this session. -/
def Smooth (works : (h : H) → γ → A h → γ → Prop) : PageProg P H A α → Session P A → γ → Prop
  | .done _, _, _ => True
  | .call c next, s, g =>
    s.turn.fault = .none ∧ ∃ g', working works c (s.device, g) (effect s.turn c s.device).1
      ((effect s.turn c s.device).2, g') ∧
      Smooth works (next (effect s.turn c s.device).1) (s.advance (effect s.turn c s.device).2) g'

/-- A run on which no call fails ends, and as was shown of all such runs. -/
theorem run_smooth {program : PageProg P H A α} {post : α → Device P → γ → Prop} {s : Session P A} {g : γ}
    (smooth : Smooth works program s g) (h : Delivers works program post s.device g) :
    ∃ a g', (program.run machine s).1 = some a ∧ post a (program.run machine s).2.device g' := by
  induction program generalizing s g with
  | done value => exact ⟨value, g, rfl, h⟩
  | call c next ih =>
    obtain ⟨well, g', step, rest⟩ := smooth
    have here : machine c s = (some (effect s.turn c s.device).1, s.advance (effect s.turn c s.device).2) := by
      unfold machine
      dsimp only
      rw [well]
    obtain ⟨a, g'', ended, done⟩ := ih _ rest (h _ _ step).2
    refine ⟨a, g'', ?_, ?_⟩
    · rw [Prog.run, here]
      exact ended
    · rw [Prog.run, here]
      exact done

theorem operate_smooth {program : PageProg P H A α} {post : α → Device P → γ → Prop} {weather : Weather A}
    {m : Medium P} {g : γ} (smooth : Smooth works program ⟨.fresh m, weather⟩ g)
    (h : Delivers works program post (.fresh m) g) :
    ∃ a d g', (operate program weather m).reply = some a ∧ post a d g' ∧
      d.Survives (operate program weather m).medium ∧ (operate program weather m).issued = d.issued := by
  obtain ⟨a, g', ended, done⟩ := run_smooth smooth h
  exact ⟨a, _, g', ended, done, Device.survives_settle _ _, rfl⟩

section Script

variable (answer : (h : H) → γ → A h) (after : H → γ → γ)

def hostAfter (after : H → γ → γ) : Call P H → γ → γ
  | .host h, g => after h g
  | _, g => g

def script : PageProg P H A α → Device P → γ → List (Turn A)
  | .done _, _, _ => []
  | .call c next, d, g =>
    let turn : Turn A := { answer := fun h => answer h g }
    turn :: script (next (effect turn c d).1) (effect turn c d).2 (hostAfter after c g)

theorem working_effect (fair : ∀ h g, works h g (answer h g) (after h g)) (c : Call P H) (d : Device P) (g : γ) :
    working works c (d, g) (effect { answer := fun h => answer h g } c d).1
      ((effect { answer := fun h => answer h g } c d).2, hostAfter after c g) := by
  cases c with
  | read page => exact ⟨rfl, rfl⟩
  | write page data => exact ⟨rfl, rfl⟩
  | sync => exact ⟨rfl, rfl⟩
  | deinit => exact ⟨rfl, _, d.survives_settle _, rfl⟩
  | host h => exact ⟨fair h g, rfl⟩

/-- Where the other hardware can answer every call, every program has a weather on which none fails. -/
theorem smooth_script (fair : ∀ h g, works h g (answer h g) (after h g)) (program : PageProg P H A α)
    (d : Device P) (idle : Turn A) (left : List Bool) (g : γ) :
    Smooth works program ⟨d, { turns := script answer after program d g, idle := idle, keep := left }⟩ g := by
  induction program generalizing d g with
  | done value => trivial
  | call c next ih =>
    exact ⟨rfl, hostAfter after c g, working_effect answer after fair c d g, ih _ _ _⟩

end Script

end PageDevice
