import FlagSurvey.Proofs.Definition.Lexeme
import FlagSurvey.Proofs.Text.Octets
import FlagSurvey.Version

/-! Versions in a text. A version stands where a run of digits begins and the text goes on with the three
numbers; the scan tries each such place once, from the left, and so finds the first that holds one. Digits
and points are octets of their own, so the places are the same in the octets of the text. -/
namespace FlagSurvey.Version

open Text Number Definition.Token
open Definition (Bounds)

/-- The digits write a number of thirty-two bits. -/
def IsPart (digits : List Char) (n : Nat) : Prop := Writes 10 digits n ∧ n < 2 ^ 32

/-- The text begins with the version: three runs of digits joined by points, the last of them as long as
its digits go. -/
def Heads (v : Version) (text : List Char) : Prop :=
  ∃ major minor patch after, text = major ++ '.' :: (minor ++ '.' :: (patch ++ after)) ∧
    IsPart major v.major ∧ IsPart minor v.minor ∧ IsPart patch v.patch ∧ Bounds isDigit after

def Fresh (inRun : Bool) (text : List Char) : Nat → Prop
  | 0 => inRun = false
  | n + 1 => ∀ c ∈ text[n]?, isDigit c = false

def StandsAt (inRun : Bool) (v : Version) (text : List Char) (position : Nat) : Prop :=
  Fresh inRun text position ∧ v.Heads (text.drop position)

/-- The version stands at the position, and none stands before it. -/
def Leftmost (inRun : Bool) (v : Version) (text : List Char) (position : Nat) : Prop :=
  StandsAt inRun v text position ∧ ∀ earlier < position, ∀ w, ¬StandsAt inRun w text earlier

theorem isDigit_of_digit? {c : Char} {d : Nat} (h : digit? 10 c = some d) : isDigit c = true := by
  by_contra other
  have below := lt_of_digit? h
  simp only [isDigit, Bool.and_eq_true, decide_eq_true_eq] at other
  simp only [digit?, Bool.and_eq_true, decide_eq_true_eq, if_neg other] at h
  grind

theorem IsPart.isDigit {digits : List Char} {n : Nat} (h : IsPart digits n) :
    ∀ c ∈ digits, isDigit c = true := by
  intro c mem
  obtain ⟨d, read⟩ := h.1.exists_digit mem
  exact isDigit_of_digit? read

theorem takePart?_eq_some_iff {text rest : List Char} {n : Nat} :
    takePart? text = some (n, rest) ↔
      ∃ digits, text = digits ++ rest ∧ IsPart digits n ∧ Bounds isDigit rest := by
  constructor
  · intro h
    rw [takePart?] at h
    split at h
    · next m read =>
      split at h
      · next bounded =>
        cases h
        exact ⟨text.takeWhile Number.isDigit, (List.takeWhile_append_dropWhile).symm,
          ⟨readNat?_eq_some_iff.mp read, bounded⟩, bounds_dropWhile _ _⟩
      · contradiction
    · contradiction
  · rintro ⟨digits, rfl, part, ended⟩
    rw [takePart?, takeWhile_append part.isDigit ended, dropWhile_append part.isDigit ended,
      readNat?_eq_some_iff.mpr part.1]
    exact if_pos part.2

theorem takePoint?_eq_some_iff {text rest : List Char} : takePoint? text = some rest ↔ text = '.' :: rest := by
  unfold takePoint?
  split <;> simp_all

theorem readAt?_eq_some_iff {text : List Char} {v : Version} : readAt? text = some v ↔ v.Heads text := by
  simp only [readAt?, Option.bind_eq_bind, Option.bind_eq_some_iff, Prod.exists, takePart?_eq_some_iff,
    takePoint?_eq_some_iff, Option.pure_def, Option.some.injEq]
  constructor
  · rintro ⟨a, _, ⟨major, rfl, first, -⟩, _, rfl, b, _, ⟨minor, rfl, second, -⟩, _, rfl, c, after,
      ⟨patch, rfl, third, ended⟩, rfl⟩
    exact ⟨major, minor, patch, after, rfl, first, second, third, ended⟩
  · rintro ⟨major, minor, patch, after, rfl, first, second, third, ended⟩
    have point (rest : List Char) : Bounds isDigit ('.' :: rest) := by simp [Bounds, isDigit]
    exact ⟨_, _, ⟨major, rfl, first, point _⟩, _, rfl, _, _, ⟨minor, rfl, second, point _⟩, _, rfl, _, after,
      ⟨patch, rfl, third, ended⟩, rfl⟩

theorem Heads.unique {text : List Char} {v w : Version} (h : v.Heads text) (again : w.Heads text) :
    v = w :=
  Option.some.inj ((readAt?_eq_some_iff.mpr h).symm.trans (readAt?_eq_some_iff.mpr again))

theorem Heads.exists_digit {text : List Char} {v : Version} (h : v.Heads text) :
    ∃ c rest, text = c :: rest ∧ Number.isDigit c = true := by
  obtain ⟨major, _, _, _, rfl, part, -⟩ := h
  obtain ⟨c, run, rfl⟩ := List.exists_cons_of_ne_nil part.1.1
  exact ⟨c, _, rfl, part.isDigit c List.mem_cons_self⟩

variable {inRun : Bool} {c : Char} {rest : List Char} {v : Version}

theorem standsAt_succ {n : Nat} :
    StandsAt inRun v (c :: rest) (n + 1) ↔ StandsAt (Number.isDigit c) v rest n := by
  cases n <;> simp [StandsAt, Fresh]

theorem exists_leftmost_cons_iff (none : ∀ w, ¬StandsAt inRun w (c :: rest) 0) :
    (∃ n, Leftmost inRun v (c :: rest) n) ↔ ∃ n, Leftmost (Number.isDigit c) v rest n := by
  constructor
  · rintro ⟨_ | n, stands, first⟩
    · exact absurd stands (none v)
    · exact ⟨n, standsAt_succ.mp stands, fun m less w other =>
        first (m + 1) (by omega) w (standsAt_succ.mpr other)⟩
  · rintro ⟨n, stands, first⟩
    refine ⟨n + 1, standsAt_succ.mpr stands, fun m less w other => ?_⟩
    cases m with
    | zero => exact none w other
    | succ m => exact first m (by omega) w (standsAt_succ.mp other)

theorem scanFrom_eq_some_iff {text : List Char} :
    scanFrom inRun text = some v ↔ ∃ n, Leftmost inRun v text n := by
  induction text generalizing inRun with
  | nil =>
    have nowhere (n : Nat) : ¬Leftmost inRun v [] n := by
      rintro ⟨⟨-, heads⟩, -⟩
      obtain ⟨c, rest, same, -⟩ := heads.exists_digit
      simp at same
    simp [scanFrom, nowhere]
  | cons c rest ih =>
    rw [scanFrom]
    split
    · next begins =>
      obtain ⟨digit, fresh⟩ : Number.isDigit c = true ∧ inRun = false := by simpa using begins
      split
      · next w read =>
        have heads := readAt?_eq_some_iff.mp read
        constructor
        · rintro ⟨⟩
          exact ⟨0, ⟨fresh, heads⟩, fun m less => absurd less (Nat.not_lt_zero m)⟩
        · rintro ⟨_ | n, stands, first⟩
          · rw [heads.unique stands.2]
          · exact absurd ⟨fresh, heads⟩ (first 0 (by omega) w)
      · next unread =>
        have none (w : Version) : ¬StandsAt inRun w (c :: rest) 0 := fun stands =>
          Option.some_ne_none w ((readAt?_eq_some_iff.mpr stands.2).symm.trans unread)
        -- Nor does a version begin further on in this run of digits.
        rw [ih, exists_leftmost_cons_iff none, digit]
    · next idle =>
      have none (w : Version) : ¬StandsAt inRun w (c :: rest) 0 := by
        rintro ⟨fresh, heads⟩
        obtain ⟨d, more, same, digit⟩ := heads.exists_digit
        obtain ⟨rfl, -⟩ := List.cons.inj same
        exact idle (by simp [digit, show inRun = false from fresh])
      rw [ih, exists_leftmost_cons_iff none]

theorem scanFrom_eq_none_iff {text : List Char} :
    scanFrom inRun text = none ↔ ∀ n v, ¬StandsAt inRun v text n := by
  constructor
  · intro unfound n v stands
    have somewhere : ∃ n v, StandsAt inRun v text n := ⟨n, v, stands⟩
    classical
    obtain ⟨w, first⟩ := Nat.find_spec somewhere
    have found := scanFrom_eq_some_iff.mpr ⟨_, first, fun earlier less w other =>
      Nat.find_min somewhere less ⟨w, other⟩⟩
    simp [unfound] at found
  · intro nowhere
    cases found : scanFrom inRun text with
    | none => rfl
    | some v =>
      obtain ⟨n, stands, -⟩ := scanFrom_eq_some_iff.mp found
      exact absurd stands (nowhere n v)

theorem scanFrom_of_not_isDigit (other : Number.isDigit c = false) :
    scanFrom inRun (c :: rest) = scanFrom false rest := by
  rw [scanFrom, if_neg (by simp [other]), other]

theorem scanFrom_append {text : List Char} (other : ∀ d ∈ text, Number.isDigit d = false) :
    scanFrom false (text ++ rest) = scanFrom false rest := by
  induction text with
  | nil => rfl
  | cons d more ih =>
    rw [List.cons_append, scanFrom_of_not_isDigit (other d List.mem_cons_self)]
    exact ih fun e mem => other e (List.mem_cons_of_mem _ mem)

theorem lt_of_isDigit {c : Char} (h : Number.isDigit c = true) : c.toNat < 128 := by
  have ⟨_, upper⟩ : '0' ≤ c ∧ c ≤ '9' := by simpa [Number.isDigit] using h
  have small : c.toNat ≤ 57 := UInt32.le_iff_toNat_le.mp upper
  omega

theorem takePart?_octets (text : List Char) :
    takePart? (octets text) = (takePart? text).map (Prod.map id octets) := by
  rw [takePart?, takePart?, takeWhile_octets (fun _ => lt_of_isDigit), dropWhile_octets (fun _ => lt_of_isDigit)]
  cases readNat? 10 (text.takeWhile Number.isDigit) with
  | none => rfl
  | some n =>
    simp only
    split <;> rfl

theorem takePoint?_octets (text : List Char) : takePoint? (octets text) = (takePoint? text).map octets := by
  cases text with
  | nil => simp [takePoint?]
  | cons c rest =>
    by_cases low : c.toNat < 128
    · rw [octets_cons_of_lt low]
      by_cases point : c = '.' <;> simp [takePoint?, point]
    · obtain ⟨other, d, more, shape, apart⟩ := exists_octets_cons (Low.beq (d := '.') (by decide)) low
      have away : c ≠ '.' := by simpa using other
      have first : d ≠ '.' := by simpa using apart
      simp [shape, takePoint?, away, first]

theorem readAt?_octets (text : List Char) : readAt? (octets text) = readAt? text := by
  simp [readAt?, takePart?_octets, takePoint?_octets, Option.bind_map]

theorem scanFrom_octets (text : List Char) : scanFrom inRun (octets text) = scanFrom inRun text := by
  induction text generalizing inRun with
  | nil => rw [octets_nil]
  | cons c rest ih =>
    by_cases low : c.toNat < 128
    · have whole := octets_cons_of_lt low rest
      rw [whole, scanFrom, ← whole, readAt?_octets, ih, ih, scanFrom]
    · have apart {d : Char} (high : 128 ≤ d.toNat) : Number.isDigit d = false :=
        Bool.eq_false_iff.mpr fun digit => by
          have := lt_of_isDigit digit
          omega
      have high := Nat.not_lt.mp low
      obtain ⟨d, more, shape⟩ := List.exists_cons_of_ne_nil (octetsOfChar_ne_nil c)
      have octet {e : Char} (mem : e ∈ d :: more) : Number.isDigit e = false :=
        apart (le_of_mem_octetsOfChar high (shape ▸ mem))
      rw [octets_cons, shape, List.cons_append, scanFrom_of_not_isDigit (octet List.mem_cons_self),
        scanFrom_append fun e mem => octet (List.mem_cons_of_mem _ mem), ih,
        scanFrom_of_not_isDigit (apart high)]

theorem isPart_decimal {n : Nat} (h : n < 2 ^ 32) : IsPart (decimal n) n :=
  ⟨readNat?_eq_some_iff.mp (readNat?_decimal n), h⟩

/-- The scan finds the version that stands first among the octets of a text, and none only where none stands;
so it finds a version again in its text, after what has no digits and before what begins with none. -/
theorem scan_finds_leftmost :
    (∀ text v, scan text = some v ↔ ∃ position, StandsAt false v (octets text.toList) position ∧
      ∀ earlier < position, ∀ w, ¬StandsAt false w (octets text.toList) earlier) ∧
    (∀ text, scan text = none ↔ ∀ position v, ¬StandsAt false v (octets text.toList) position) ∧
    ∀ (v : Version) (before after : String), v.major < 2 ^ 32 → v.minor < 2 ^ 32 → v.patch < 2 ^ 32 →
      (∀ c ∈ before.toList, Number.isDigit c = false) →
      (∀ c ∈ after.toList.head?, Number.isDigit c = false) → scan (before ++ v.text ++ after) = some v := by
  refine ⟨fun text v => ?_, fun text => ?_, fun v before after major minor patch apart ended => ?_⟩
  · rw [scan, ← scanFrom_octets, scanFrom_eq_some_iff]
    rfl
  · rw [scan, ← scanFrom_octets, scanFrom_eq_none_iff]
  · have heads : v.Heads (v.text.toList ++ after.toList) :=
      ⟨_, _, _, _, by simp [text], isPart_decimal major, isPart_decimal minor, isPart_decimal patch, ended⟩
    rw [scan, String.toList_append, String.toList_append, List.append_assoc, scanFrom_append apart,
      scanFrom_eq_some_iff]
    exact ⟨0, ⟨rfl, heads⟩, fun earlier less => absurd less (Nat.not_lt_zero earlier)⟩

theorem version_read_back :
    let v : Version := ⟨9, 0, 4294967295⟩
    scan ("é v" ++ v.text ++ " 1.2.3") = some v := by
  intro v
  exact scan_finds_leftmost.2.2 v "é v" " 1.2.3" (by decide) (by decide) (by decide) (by simp [isDigit])
    (by simp [isDigit])

end FlagSurvey.Version
