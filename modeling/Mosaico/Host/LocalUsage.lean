import Mosaico.Host.LocalUsageModel
import Mosaico.Host.JsonText

/-! A log that is scanned as it grows yields the events of one scan of all of it. -/
namespace Mosaico.Host.LocalUsage

open TokenHistory LineStream

variable {rt : Runtime} {now : Int}

/-- The events of some lines that are in the window, and the total after them. -/
def emit (rt : Runtime) (now : Int) (previous : Option Int) : List (List UInt8) → List Event × Option Int
  | [] => ([], previous)
  | line :: rest =>
    let one := lineEvent rt previous line
    let later := emit rt now one.2 rest
    ((one.1.toList.filter fun event => decide (cutoff now ≤ event.epoch ∧ event.epoch ≤ now + 300)) ++
      later.1, later.2)

def events (rt : Runtime) (now : Int) (content : List UInt8) : List Event :=
  (emit rt now none (lines newline content)).1

def totalAfter (rt : Runtime) (now : Int) (content : List UInt8) : Option Int :=
  (emit rt now none (lines newline content)).2

section Lines

theorem emit_append (previous : Option Int) (front back : List (List UInt8)) :
    emit rt now previous (front ++ back) =
      ((emit rt now previous front).1 ++ (emit rt now (emit rt now previous front).2 back).1,
        (emit rt now (emit rt now previous front).2 back).2) := by
  induction front generalizing previous with
  | nil => rfl
  | cons line front ih =>
    rw [List.cons_append, emit, ih, emit]
    simp only [List.append_assoc]

theorem foldl_readLine (previous : Option Int) (db : Db) (fresh : List (List UInt8)) :
    fresh.foldl (readLine rt now) (previous, db) =
      ((emit rt now previous fresh).2, (emit rt now previous fresh).1.foldl Db.insert db) := by
  induction fresh generalizing previous db with
  | nil => rfl
  | cons line fresh ih =>
    rw [List.foldl_cons, emit]
    cases one : lineEvent rt previous line with
    | mk event next =>
      cases event with
      | none =>
        have turn : readLine rt now (previous, db) line = (next, db) := by simp only [readLine, one]
        rw [turn, ih]
        rfl
      | some event =>
        by_cases inside : cutoff now ≤ event.epoch ∧ event.epoch ≤ now + 300
        · have turn : readLine rt now (previous, db) line = (next, db.insert event) := by
            simp only [readLine, one, if_pos inside]
          rw [turn, ih]
          simp only [Option.toList_some, List.filter_cons, inside, and_self, decide_true, if_true, List.filter_nil,
            List.singleton_append, List.foldl_cons]
        · have turn : readLine rt now (previous, db) line = (next, db) := by
            simp only [readLine, one, if_neg inside]
          rw [turn, ih]
          simp only [Option.toList_some, List.filter_cons, inside, decide_false, Bool.false_eq_true, if_false,
            List.filter_nil, List.nil_append]

/-- The lines behind the place reached, read on with the total reached, complete the events. -/
theorem events_append (front back : List UInt8) :
    emit rt now none (lines newline (front ++ back)) =
      (events rt now front ++
          (emit rt now (totalAfter rt now front) (lines newline ((front ++ back).drop (consumed newline front)))).1,
        (emit rt now (totalAfter rt now front)
          (lines newline ((front ++ back).drop (consumed newline front)))).2) := by
  rw [lines_append, emit_append]
  rfl

theorem emit_window (previous : Option Int) (ls : List (List UInt8)) :
    ∀ event ∈ (emit rt now previous ls).1, cutoff now ≤ event.epoch := by
  induction ls generalizing previous with
  | nil => exact nofun
  | cons line ls ih =>
    intro event member
    rw [emit, List.mem_append] at member
    rcases member with here | later
    · exact (of_decide_eq_true (List.mem_filter.mp here).2).1
    · exact ih _ event later

end Lines

section Outbox

variable {db : Db} {new : List Event}

/-- Rows are only inserted once they are looked up, and are remembered. -/
structure Kept (db : Db) (now : Int) : Prop where
  known : ∀ row ∈ db.outbox, row ∈ db.placed
  window : ∀ row ∈ db.outbox, cutoff now ≤ row.epoch

theorem insert_cases (db : Db) (event : Event) :
    (∃ row ∈ db.outbox, row.id = event.id) ∧ db.insert event = db ∨
      db.insert event = { db with outbox := db.outbox ++ [event], placed := db.placed ++ [event] } := by
  unfold Db.insert
  split
  case isTrue found =>
    obtain ⟨row, member, same⟩ := List.any_eq_true.mp found
    exact Or.inl ⟨⟨row, member, of_decide_eq_true same⟩, rfl⟩
  case isFalse => exact Or.inr rfl

theorem kept_insert {event : Event} (h : Kept db now) (inside : cutoff now ≤ event.epoch) :
    Kept (db.insert event) now ∧ (db.insert event).cursor = db.cursor := by
  rcases insert_cases db event with ⟨-, same⟩ | new
  · rw [same]
    exact ⟨h, rfl⟩
  · rw [new]
    refine ⟨⟨fun row hrow => ?_, fun row hrow => ?_⟩, rfl⟩
    · rcases List.mem_append.mp hrow with old | last
      · exact List.mem_append_left _ (h.known row old)
      · exact List.mem_append_right _ last
    · rcases List.mem_append.mp hrow with old | last
      · exact h.window row old
      · rw [List.mem_singleton.mp last]
        exact inside

theorem kept_inserts (h : Kept db now) (inside : ∀ event ∈ new, cutoff now ≤ event.epoch) :
    Kept (new.foldl Db.insert db) now ∧ (new.foldl Db.insert db).cursor = db.cursor := by
  induction new generalizing db with
  | nil => exact ⟨h, rfl⟩
  | cons event new ih =>
    obtain ⟨next, cursor⟩ := kept_insert h (inside event List.mem_cons_self)
    obtain ⟨all, cursor'⟩ := ih next fun e he => inside e (List.mem_cons_of_mem _ he)
    exact ⟨all, cursor'.trans cursor⟩

/-- Where an id stands for one event, ignoring a known id loses none. -/
theorem mem_inserts {U : List Event} (apart : ∀ a ∈ U, ∀ b ∈ U, a.id = b.id → a = b) (h : Kept db now)
    (old : ∀ e ∈ db.placed, e ∈ U) (fresh : ∀ e ∈ new, e ∈ U)
    (inside : ∀ event ∈ new, cutoff now ≤ event.epoch)
    (e : Event) : e ∈ (new.foldl Db.insert db).placed ↔ e ∈ db.placed ∨ e ∈ new := by
  induction new generalizing db with
  | nil => exact ⟨Or.inl, fun h => h.resolve_right List.not_mem_nil⟩
  | cons event new ih =>
    have here := fresh event List.mem_cons_self
    have placed : ∀ x, x ∈ (db.insert event).placed ↔ x ∈ db.placed ∨ x = event := by
      intro x
      rcases insert_cases db event with ⟨⟨row, member, same⟩, kept⟩ | inserted
      · have equal : row = event := apart row (old row (h.known row member)) event here same
        rw [kept]
        refine ⟨Or.inl, fun either => either.elim id ?_⟩
        rintro rfl
        rw [← equal]
        exact h.known row member
      · rw [inserted, List.mem_append, List.mem_singleton]
    obtain ⟨next, -⟩ := kept_insert h (inside event List.mem_cons_self)
    rw [List.foldl_cons, ih next _ (fun x hx => fresh x (List.mem_cons_of_mem _ hx))
      (fun x hx => inside x (List.mem_cons_of_mem _ hx)), placed, List.mem_cons, or_assoc]
    intro x hx
    rcases (placed x).mp hx with before | rfl
    · exact old x before
    · exact here

/-- No event is placed more often than it comes. -/
theorem inserts_sublist (db : Db) (new : List Event) :
    ∃ more, more.Sublist new ∧ (new.foldl Db.insert db).placed = db.placed ++ more := by
  induction new generalizing db with
  | nil => exact ⟨[], List.Sublist.refl _, (List.append_nil _).symm⟩
  | cons event new ih =>
    obtain ⟨more, inside, placed⟩ := ih (db.insert event)
    rw [List.foldl_cons, placed]
    rcases insert_cases db event with ⟨-, kept⟩ | inserted
    · exact ⟨more, inside.cons event, by rw [kept]⟩
    · refine ⟨event :: more, inside.cons_cons event, ?_⟩
      rw [inserted, List.append_assoc]
      rfl

end Outbox

section Scans

variable {file : File} {db : Db} {read : List UInt8}

/-- The database after the lines of a beginning of the log. -/
structure Tracks (rt : Runtime) (now : Int) (file : File) (db : Db) (read : List UInt8) : Prop where
  kept : Kept db now
  start : read <+: file.content
  cursor : db.cursor = some ⟨consumed newline read, totalAfter rt now read, file.identity⟩ ∨
    db.cursor = none ∧ read = []

theorem resume_tracked (h : Tracks rt now file db read) :
    resume file db = (consumed newline read, totalAfter rt now read) := by
  unfold resume
  rcases h.cursor with row | ⟨none_, rfl⟩
  · rw [row]
    have inside : consumed newline read ≤ file.content.length := Nat.le_trans (consumed_le read) h.start.length_le
    exact if_pos ⟨rfl, inside⟩
  · rw [none_]
    rfl

def since (rt : Runtime) (now : Int) (read content : List UInt8) : List Event :=
  (emit rt now (totalAfter rt now read) (lines newline (content.drop (consumed newline read)))).1

theorem events_since (start : read <+: file.content) :
    events rt now file.content = events rt now read ++ since rt now read file.content := by
  obtain ⟨more, whole⟩ := start
  rw [← whole]
  exact congrArg Prod.fst (events_append read more)

/-- A scan inserts the events that have come since, and remembers how far it came. -/
theorem scan_eq (h : Tracks rt now file db read) (recent : cutoff now ≤ file.mtime) :
    scan rt now file db = { (since rt now read file.content).foldl Db.insert db with
      cursor := some ⟨consumed newline file.content, totalAfter rt now file.content, file.identity⟩ } := by
  have inside : ∀ event ∈ since rt now read file.content, cutoff now ≤ event.epoch := emit_window _ _
  obtain ⟨kept, -⟩ := kept_inserts h.kept inside
  obtain ⟨more, whole⟩ := h.start
  have all := @events_append rt now read more
  rw [whole] at all
  have end_ : consumed newline file.content =
      consumed newline read + (lines newline (file.content.drop (consumed newline read))).flatten.length := by
    have split := @consumed_append _ newline read more
    rwa [whole] at split
  -- The rows of the window all stay.
  have filtered : ∀ db : Db, Kept db now →
      { db with outbox := db.outbox.filter fun event => cutoff now ≤ event.epoch } = db := by
    intro db keeps
    have same : db.outbox.filter (fun event => decide (cutoff now ≤ event.epoch)) = db.outbox :=
      List.filter_eq_self.mpr fun row hrow => decide_eq_true (keeps.window row hrow)
    rw [same]
  have scanned : scanFile rt now file db = { (since rt now read file.content).foldl Db.insert db with
      cursor := some ⟨consumed newline file.content, totalAfter rt now file.content, file.identity⟩ } := by
    unfold scanFile
    rw [if_neg (Int.not_lt.mpr recent), resume_tracked h]
    dsimp only
    split
    case isTrue caught =>
      have nothing : file.content.drop (consumed newline read) = [] := by
        rw [caught.2, List.drop_length]
      have none_ : since rt now read file.content = [] := by
        unfold since
        rw [nothing]
        rfl
      rw [none_, List.foldl_nil]
      have total : totalAfter rt now file.content = totalAfter rt now read := by
        rw [totalAfter, all, nothing]
        rfl
      have place : consumed newline file.content = consumed newline read := by
        rw [end_, nothing]
        rfl
      rcases h.cursor with row | ⟨gone, -⟩
      · rw [total, place, ← row]
      · rw [gone] at caught
        exact absurd caught.1 Bool.false_ne_true
    case isFalse =>
      have total : totalAfter rt now file.content = (emit rt now (totalAfter rt now read)
          (lines newline (file.content.drop (consumed newline read)))).2 := by
        show (emit rt now none (lines newline file.content)).2 = _
        rw [all]
      rw [foldl_readLine, ← end_, total]
      rfl
  have tracked : Kept (scanFile rt now file db) now := by
    rw [scanned]
    exact ⟨kept.known, kept.window⟩
  unfold scan
  dsimp only
  rw [filtered _ tracked, scanned]

theorem scan_tracked (h : Tracks rt now file db read) (recent : cutoff now ≤ file.mtime) :
    Tracks rt now file (scan rt now file db) file.content := by
  have inside : ∀ event ∈ since rt now read file.content, cutoff now ≤ event.epoch := emit_window _ _
  have kept := (kept_inserts h.kept inside).1
  rw [scan_eq h recent]
  exact ⟨⟨kept.known, kept.window⟩, List.prefix_rfl, Or.inl rfl⟩

theorem acknowledge_tracked (h : Tracks rt now file db read) (done : List Event) :
    Tracks rt now file (acknowledge db done) read := by
  refine ⟨⟨fun row hrow => ?_, fun row hrow => ?_⟩, h.start, h.cursor⟩
  · exact h.kept.known row (List.mem_filter.mp hrow).1
  · exact h.kept.window row (List.mem_filter.mp hrow).1

theorem append_tracked (h : Tracks rt now file db read) (data : List UInt8) (mtime : Int) :
    Tracks rt now { file with content := file.content ++ data, mtime } db read :=
  ⟨h.kept, h.start.trans (List.prefix_append _ _), h.cursor⟩

end Scans

section Runs

variable {s : State} {ops : List Op}

theorem content_run (s : State) (ops : List Op) : s.file.content <+: (run rt now s ops).file.content := by
  induction ops generalizing s with
  | nil => exact List.prefix_rfl
  | cons op ops ih =>
    have first : s.file.content <+: (step rt now s op).file.content := by
      cases op with
      | append data mtime => exact List.prefix_append _ _
      | scan => exact List.prefix_rfl
      | deliver limit => exact List.prefix_rfl
      | restart => exact List.prefix_rfl
    exact first.trans (ih (step rt now s op))

/-- The log was written inside the window, at the start and by every append. -/
def Recent (now : Int) (ops : List Op) : Prop :=
  ∀ op ∈ ops, ∀ data mtime, op = .append data mtime → cutoff now ≤ mtime

/-- What is placed are events of what has been read, none more often than it is there; and all of them,
where an id stands for one event. -/
structure Reached (rt : Runtime) (now : Int) (final : List UInt8) (s : State) (read : List UInt8) : Prop where
  tracks : Tracks rt now s.file s.db read
  recent : cutoff now ≤ s.file.mtime
  members : (∀ a ∈ events rt now final, ∀ b ∈ events rt now final, a.id = b.id → a = b) →
    ∀ e, e ∈ s.db.placed ↔ e ∈ events rt now read
  sublist : s.db.placed.Sublist (events rt now read)

theorem reached_scan {final read : List UInt8} (h : Reached rt now final s read) (before : s.file.content <+: final) :
    Reached rt now final (step rt now s .scan) s.file.content := by
  have tracks := scan_tracked h.tracks h.recent
  have placed : (scan rt now s.file s.db).placed =
      ((since rt now read s.file.content).foldl Db.insert s.db).placed := by
    rw [scan_eq h.tracks h.recent]
  have inside : ∀ event ∈ since rt now read s.file.content, cutoff now ≤ event.epoch := emit_window _ _
  have split := @events_since rt now _ _ h.tracks.start
  obtain ⟨more, whole⟩ := before
  have later : events rt now final = events rt now s.file.content ++ (since rt now s.file.content final) := by
    rw [← whole]
    exact congrArg Prod.fst (events_append s.file.content more)
  refine ⟨tracks, h.recent, fun apart e => ?_, ?_⟩
  · have old := h.members apart
    show e ∈ (scan rt now s.file s.db).placed ↔ _
    rw [placed, mem_inserts apart h.tracks.kept _ _ inside, split, List.mem_append, old]
    · intro x hx
      rw [later, split]
      exact List.mem_append_left _ (List.mem_append_left _ ((old x).mp hx))
    · intro x hx
      rw [later, split]
      exact List.mem_append_left _ (List.mem_append_right _ hx)
  · obtain ⟨added, among, whole_⟩ := inserts_sublist s.db (since rt now read s.file.content)
    show (scan rt now s.file s.db).placed.Sublist _
    rw [placed, whole_, split]
    exact h.sublist.append among

theorem reached_run {final read : List UInt8} (h : Reached rt now final s read) (fresh : Recent now ops)
    (before : (run rt now s ops).file.content <+: final) :
    ∃ read', Reached rt now final (run rt now s ops) read' := by
  induction ops generalizing s read with
  | nil => exact ⟨read, h⟩
  | cons op ops ih =>
    have rest : Recent now ops := fun op hop => fresh op (List.mem_cons_of_mem _ hop)
    cases op with
    | append data mtime =>
      have recent := fresh _ List.mem_cons_self data mtime rfl
      exact ih ⟨append_tracked h.tracks data mtime, recent, h.members, h.sublist⟩ rest before
    | scan =>
      have now_ : s.file.content <+: final := (content_run s (.scan :: ops)).trans before
      exact ih (reached_scan h now_) rest before
    | deliver limit => exact ih ⟨acknowledge_tracked h.tracks _, h.recent, h.members, h.sublist⟩ rest before
    | restart => exact ih h rest before

theorem reached_start (final : List UInt8) (file : File) (recent : cutoff now ≤ file.mtime) :
    Reached rt now final { file } [] :=
  ⟨⟨⟨nofun, nofun⟩, List.nil_prefix, Or.inr ⟨rfl, rfl⟩⟩, recent, fun _ _ => Iff.rfl, List.Sublist.refl _⟩

/-- Appends, scans, deliveries and restarts in any order place no event more often than the log yields it;
and the events that one scan of the final log places, where an id stands for one event. -/
theorem scan_incremental (rt : Runtime) (now : Int) (identity : String) (mtime : Int) (ops : List Op)
    (recent : cutoff now ≤ mtime) (fresh : Recent now ops) :
    let s := run rt now { file := { identity, mtime } } (ops ++ [.scan])
    let once := scan rt now s.file {}
    s.db.placed.Sublist (events rt now s.file.content) ∧
      ((∀ a ∈ events rt now s.file.content, ∀ b ∈ events rt now s.file.content, a.id = b.id → a = b) →
        ∀ e, e ∈ s.db.placed ↔ e ∈ once.placed) := by
  dsimp only
  have last : run rt now { file := { identity, mtime } } (ops ++ [.scan]) =
      step rt now (run rt now { file := { identity, mtime } } ops) .scan := by
    rw [run, List.foldl_append]
    rfl
  obtain ⟨read, reached⟩ := reached_run (reached_start _ { identity, mtime } recent) fresh List.prefix_rfl
  rw [last]
  generalize run rt now { file := { identity, mtime } } ops = s at reached
  have scanned := reached_scan reached List.prefix_rfl
  have single := reached_scan (@reached_start rt now s.file.content s.file reached.recent) List.prefix_rfl
  refine ⟨scanned.sublist, fun apart e => ?_⟩
  rw [scanned.members apart]
  exact (single.members apart e).symm

end Runs

section Repeated

def usage (v : Int) : Json := .object [("total_tokens", .number (some v))]

def record (timestamp : String) (total last : Int) : Json :=
  .object [("timestamp", .string timestamp), ("type", .string "event_msg"), ("payload",
    .object [("type", .string "token_count"), ("info",
      .object [("total_token_usage", usage total), ("last_token_usage", usage last)])])]

def lineOf (j : Json) : List UInt8 := ((dumps j).getD []) ++ [10]

def firstRecord : Json := record "2026-09-19T12:30:00Z" 1000 50
def secondRecord : Json := record "2026-09-19T12:31:00Z" 2000 70

def twoLines : Runtime where
  loads line := if line = lineOf firstRecord then some firstRecord
    else if line = lineOf secondRecord then some secondRecord else none
  isoEpoch timestamp := if timestamp = "2026-09-19T12:30:00Z" then some 1789821000
    else if timestamp = "2026-09-19T12:31:00Z" then some 1789821060 else none
  dumps j := (dumps j).getD []

def eventOf (timestamp : String) (epoch total last : Int) : Event where
  id := Sha256.sha256 ((dumps (.array [.string timestamp, usage total, usage last])).getD [])
  epoch := epoch
  tokens := last

theorem lineEvent_first {previous : Option Int} (other : previous ≠ some 1000) :
    lineEvent twoLines previous (lineOf firstRecord) =
      (some (eventOf "2026-09-19T12:30:00Z" 1789821000 1000 50), some 1000) := by
  have marked : CText.strstr marker (lineOf firstRecord) ≠ none := by decide +kernel
  have loaded : twoLines.loads (lineOf firstRecord) = some firstRecord := by
    simp only [twoLines, if_true]
  rw [lineEvent, if_neg marked, loaded]
  have read : reading twoLines firstRecord =
      some ⟨"2026-09-19T12:30:00Z", 1789821000, usage 1000, usage 50, 1000, 50⟩ := rfl
  show eventFromRecord twoLines firstRecord previous = _
  simp only [eventFromRecord, read]
  rw [if_neg (Ne.symm other), if_neg (by decide)]
  rfl

theorem lineEvent_second {previous : Option Int} (other : previous ≠ some 2000) :
    lineEvent twoLines previous (lineOf secondRecord) =
      (some (eventOf "2026-09-19T12:31:00Z" 1789821060 2000 70), some 2000) := by
  have marked : CText.strstr marker (lineOf secondRecord) ≠ none := by decide +kernel
  have apart : lineOf secondRecord ≠ lineOf firstRecord := by decide +kernel
  have loaded : twoLines.loads (lineOf secondRecord) = some secondRecord := by
    simp only [twoLines, apart, if_false, if_true]
  rw [lineEvent, if_neg marked, loaded]
  have read : reading twoLines secondRecord =
      some ⟨"2026-09-19T12:31:00Z", 1789821060, usage 2000, usage 70, 2000, 70⟩ := rfl
  show eventFromRecord twoLines secondRecord previous = _
  simp only [eventFromRecord, read]
  rw [if_neg (Ne.symm other), if_neg (by decide)]
  rfl

/-- One line, read with some total before it. -/
theorem emit_one {previous next : Option Int} {line : List UInt8} {event : Event}
    (one : lineEvent rt previous line = (some event, next))
    (inside : cutoff now ≤ event.epoch ∧ event.epoch ≤ now + 300) :
    emit rt now previous [line] = ([event], next) := by
  simp only [emit, one, Option.toList_some, List.filter_cons, inside, and_self, decide_true, if_true, List.filter_nil,
    List.append_nil]

theorem emit_two (event₁ event₂ : Event) {previous middle next : Option Int} {line₁ line₂ : List UInt8}
    (one : emit rt now previous [line₁] = ([event₁], middle))
    (two : emit rt now middle [line₂] = ([event₂], next)) :
    emit rt now previous [line₁, line₂] = ([event₁, event₂], next) := by
  have both := @emit_append rt now previous [line₁] [line₂]
  rw [one, two] at both
  exact both

/-- One more line behind complete lines. -/
theorem since_complete {read line : List UInt8} {previous : Option Int} (all : consumed newline read = read.length)
    (total : totalAfter rt now read = previous) (single : lines newline line = [line]) :
    since rt now read (read ++ line) = (emit rt now previous [line]).1 ∧
      totalAfter rt now (read ++ line) = (emit rt now previous [line]).2 ∧
      consumed newline (read ++ line) = (read ++ line).length := by
  have behind : (read ++ line).drop (consumed newline read) = line := by
    rw [all]
    exact List.drop_left
  have split := @events_append rt now read line
  rw [behind, total, single] at split
  refine ⟨?_, (congrArg Prod.snd split :), ?_⟩
  · rw [since, behind, total, single]
  · rw [consumed_append, behind, single, all, List.length_append, List.flatten_singleton]

/-- All of a log of complete lines has been read and delivered. -/
structure Delivered (rt : Runtime) (now : Int) (s : State) (total : Option Int) : Prop where
  tracks : Tracks rt now s.file s.db s.file.content
  whole : consumed newline s.file.content = s.file.content.length
  total : totalAfter rt now s.file.content = total
  empty : s.db.outbox = []

def round (line : List UInt8) (mtime : Int) : List Op := [.append line mtime, .scan, .deliver 1000]

/-- A line is appended and scanned, and its event delivered. -/
theorem round_delivered {s : State} {event : Event} {previous next : Option Int} {line : List UInt8} {mtime : Int}
    (h : Delivered rt now s previous) (recent : cutoff now ≤ mtime) (single : lines newline line = [line])
    (one : emit rt now previous [line] = ([event], next)) :
    Delivered rt now (run rt now s (round line mtime)) next ∧
      (run rt now s (round line mtime)).db.placed = s.db.placed ++ [event] := by
  obtain ⟨new, total, whole⟩ := since_complete h.whole h.total single
  rw [one] at new total
  let file : File := { s.file with content := s.file.content ++ line, mtime }
  have tracked : Tracks rt now file s.db s.file.content := append_tracked h.tracks line mtime
  have scanned := scan_eq tracked recent
  have later := scan_tracked tracked recent
  have inserted : s.db.insert event = { s.db with outbox := [event], placed := s.db.placed ++ [event] } := by
    simp only [Db.insert, h.empty, List.any_nil, Bool.false_eq_true, if_false, List.nil_append]
  have fresh : since rt now s.file.content file.content = [event] := new
  rw [fresh, List.foldl_cons, List.foldl_nil, inserted] at scanned
  have waiting : pending (scan rt now file s.db) 1000 = [event] := by
    rw [scanned]
    simp only [pending, List.mergeSort_singleton]
    rfl
  refine ⟨⟨acknowledge_tracked later _, whole, total, ?_⟩, ?_⟩
  · show (acknowledge (scan rt now file s.db) (pending (scan rt now file s.db) 1000)).outbox = []
    rw [waiting, scanned]
    simp [acknowledge]
  · show (scan rt now file s.db).placed = _
    rw [scanned]

def first : Event := eventOf "2026-09-19T12:30:00Z" 1789821000 1000 50
def second : Event := eventOf "2026-09-19T12:31:00Z" 1789821060 2000 70

def start : State where
  file := { identity := "1:2", mtime := 1789822800 }

theorem inside_window : cutoff 1789822800 ≤ 1789822800 := by decide

theorem start_delivered : Delivered twoLines 1789822800 start none :=
  ⟨⟨⟨nofun, nofun⟩, List.prefix_rfl, Or.inr ⟨rfl, rfl⟩⟩, rfl, rfl, rfl⟩

theorem single_first : lines newline (lineOf firstRecord) = [lineOf firstRecord] := by decide +kernel
theorem single_second : lines newline (lineOf secondRecord) = [lineOf secondRecord] := by decide +kernel

theorem emit_first {previous : Option Int} (other : previous ≠ some 1000) :
    emit twoLines 1789822800 previous [lineOf firstRecord] = ([first], some 1000) :=
  emit_one (lineEvent_first other) (by decide)

theorem emit_second {previous : Option Int} (other : previous ≠ some 2000) :
    emit twoLines 1789822800 previous [lineOf secondRecord] = ([second], some 2000) :=
  emit_one (lineEvent_second other) (by decide)

/-- A record, another total behind it, and the record once more, each delivered before the next is written. -/
theorem repeated_placed_again :
    (run twoLines 1789822800 start (round (lineOf firstRecord) 1789822800)).db.outbox = [] ∧
      (run twoLines 1789822800 start (round (lineOf firstRecord) 1789822800)).db.placed = [first] ∧
      (run twoLines 1789822800 start (round (lineOf firstRecord) 1789822800 ++
        round (lineOf secondRecord) 1789822800 ++ round (lineOf firstRecord) 1789822800)).db.placed =
        [first, second, first] := by
  obtain ⟨one, placed₁⟩ := round_delivered start_delivered inside_window single_first
    (emit_first (by decide))
  obtain ⟨two, placed₂⟩ := round_delivered one inside_window single_second
    (emit_second (by decide))
  obtain ⟨-, placed₃⟩ := round_delivered two inside_window single_first
    (emit_first (by decide))
  refine ⟨one.empty, placed₁, ?_⟩
  rw [run, List.foldl_append, List.foldl_append]
  exact placed₃.trans (by rw [placed₂, placed₁]; rfl)

/-- The two lines in three pieces, cut inside either of them, with scans, a delivery and a restart between
the pieces. -/
def cutOps : List Op :=
  [.append ((lineOf firstRecord).take 40) 1789822800, .scan,
    .append ((lineOf firstRecord).drop 40 ++ (lineOf secondRecord).take 60) 1789822800, .scan,
      .deliver 1000, .restart,
    .append ((lineOf secondRecord).drop 60) 1789822800]

def cutFile : File := { start.file with content := lineOf firstRecord ++ lineOf secondRecord }

theorem cut_file : (run twoLines 1789822800 start (cutOps ++ [.scan])).file = cutFile := by
  have whole : [] ++ (lineOf firstRecord).take 40 ++
      ((lineOf firstRecord).drop 40 ++ (lineOf secondRecord).take 60) ++ (lineOf secondRecord).drop 60 =
      lineOf firstRecord ++ lineOf secondRecord := by
    rw [List.nil_append, ← List.append_assoc, List.take_append_drop, List.append_assoc, List.take_append_drop]
  exact congrArg (fun content => { start.file with content }) whole

private theorem cut_events : events twoLines 1789822800 cutFile.content = [first, second] := by
  have whole : lines newline (lineOf firstRecord ++ lineOf secondRecord) =
      [lineOf firstRecord, lineOf secondRecord] := by
    decide +kernel
  rw [events, cutFile, whole, emit_two first second (emit_first (by decide)) (emit_second (by decide))]

private theorem ids_apart : first.id ≠ second.id := by decide +kernel

/-- Both events are placed once, as by one scan of the whole log. -/
theorem scan_incremental_cut :
    let s := run twoLines 1789822800 start (cutOps ++ [.scan])
    s.db.placed.Sublist [first, second] ∧ ∀ e, e ∈ s.db.placed ↔ e = first ∨ e = second := by
  have fresh : Recent 1789822800 cutOps := by
    intro op member data mtime same
    rw [same, cutOps] at member
    simp only [List.mem_cons, Op.append.injEq, reduceCtorEq, List.not_mem_nil, or_false, false_or] at member
    rcases member with ⟨-, rfl⟩ | ⟨-, rfl⟩ | ⟨-, rfl⟩
    · decide
    · decide
    · decide
  have whole := scan_incremental twoLines 1789822800 "1:2" 1789822800 cutOps (by decide) fresh
  rw [show ({ file := { identity := "1:2", mtime := 1789822800 } } : State) = start from rfl] at whole
  dsimp only at whole ⊢
  rw [cut_file, cut_events] at whole
  obtain ⟨placed, same⟩ := whole
  have apart : ∀ a ∈ [first, second], ∀ b ∈ [first, second], a.id = b.id → a = b := by
    simp only [List.mem_cons, List.not_mem_nil, or_false]
    rintro a (rfl | rfl) b (rfl | rfl) ids
    · rfl
    · exact absurd ids ids_apart
    · exact absurd ids.symm ids_apart
    · rfl
  have once := reached_scan (@reached_start twoLines 1789822800 cutFile.content cutFile inside_window) List.prefix_rfl
  have members := once.members (by rw [cut_events]; exact apart)
  rw [cut_events] at members
  refine ⟨placed, fun e => (same apart e).trans ((members e).trans ?_)⟩
  simp only [List.mem_cons, List.not_mem_nil, or_false]

end Repeated

end Mosaico.Host.LocalUsage
