import FlagSurvey.Proofs.Survey.Listing

/-! Listings line by line. A line goes from the beginning or a line feed to the end or the next line feed;
a carriage return at its end tells nothing, for an option ends before a space. So a listing is scanned by
its lines: the options are those that some line lists, each where its first line is, and what is listed
further on only adds to them. -/
namespace FlagSurvey.Listing

open Text Number

/-- The line is two spaces, the option, a space, and anything, where the option is the lead and one or more
small letters, digits and hyphens. -/
def Lists (lead line option : List Char) : Prop :=
  ∃ body rest, body ≠ [] ∧ (∀ c ∈ body, ('a' ≤ c ∧ c ≤ 'z') ∨ ('0' ≤ c ∧ c ≤ '9') ∨ c = '-') ∧
    option = lead ++ body ∧ line = ' ' :: ' ' :: (option ++ ' ' :: rest)

/-- The text has the line behind what stands before it, from one line feed or end to the next. -/
def HasLine (text before line : List Char) : Prop :=
  ∃ after, text = before ++ (line ++ after) ∧ (∀ c ∈ before.getLast?, c = '\n') ∧ '\n' ∉ line ∧
    ∀ c ∈ after.head?, c = '\n'

def ListedAt (lead listing : String) (before : List Char) (option : String) : Prop :=
  ∃ line, HasLine listing.toList before line ∧ Lists lead.toList line option.toList

/-- The options are those that lines of the listing list, each once, in the order of their first lines. -/
structure Scanned (lead listing : String) (found : List String) : Prop where
  listed : ∀ option, option ∈ found ↔ ∃ before, ListedAt lead listing before option
  once : found.Nodup
  ordered : found.Pairwise fun a b => ∃ before, ListedAt lead listing before a ∧
    ∀ other, ListedAt lead listing other b → before.length < other.length

theorem option?_eq_some_iff_lists {lead line option : List Char} :
    option? lead line = some option ↔ Lists lead line option := by
  rw [option?_eq_some_iff, Lists]
  constructor
  · rintro ⟨body, rest, some_body, chars, rfl, rfl⟩
    refine ⟨body, rest, some_body, fun c mem => ?_, rfl, by simp⟩
    simpa [isOptionChar, isDigit, or_assoc] using chars c mem
  · rintro ⟨body, rest, some_body, chars, rfl, rfl⟩
    refine ⟨body, rest, some_body, fun c mem => ?_, rfl, by simp⟩
    simpa [isOptionChar, isDigit, or_assoc] using chars c mem

theorem option?_carriageReturn (lead line : List Char) :
    option? lead (line ++ ['\r']) = option? lead line := by
  ext option
  simp only [option?_eq_some_iff_lists, Lists]
  constructor
  · rintro ⟨body, rest, some_body, chars, rfl, shape⟩
    have last : (' ' :: rest).getLast? = some '\r' := by
      have ends := congrArg List.getLast? shape
      rwa [List.getLast?_concat, ← List.cons_append, ← List.cons_append,
        List.getLast?_append_of_ne_nil _ (List.cons_ne_nil _ _), eq_comm] at ends
    obtain ⟨front, split⟩ := List.getLast?_eq_some_iff.mp last
    cases front with
    | nil => simp at split
    | cons c front =>
      obtain ⟨rfl, rfl⟩ := List.cons.inj split
      have whole : line ++ ['\r'] = ' ' :: ' ' :: (lead ++ body ++ ' ' :: front) ++ ['\r'] := by
        simpa using shape
      exact ⟨body, front, some_body, chars, rfl, List.append_cancel_right whole⟩
  · rintro ⟨body, rest, some_body, chars, rfl, rfl⟩
    exact ⟨body, rest ++ ['\r'], some_body, chars, rfl, by simp⟩

theorem line_induction {holds : List Char → Prop} (last : ∀ line, '\n' ∉ line → holds line)
    (more : ∀ line rest, '\n' ∉ line → holds rest → holds (line ++ '\n' :: rest)) (text : List Char) :
    holds text := by
  induction size : text.length using Nat.strong_induction_on generalizing text with
  | _ n ih =>
    by_cases mem : '\n' ∈ text
    · obtain ⟨line, rest, rfl, whole⟩ := List.eq_append_cons_of_mem mem
      exact more line rest whole (ih rest.length (by simp [← size]; omega) rest rfl)
    · exact last text mem

theorem lines_cons {c : Char} {rest : List Char} (inside : c ≠ '\n')
    (onward : c = '\r' → rest.head? ≠ some '\n') :
    lines (c :: rest) = (c :: (lines rest).headD []) :: (lines rest).tail := by
  rw [lines]
  · cases lines rest <;> rfl
  · exact fun same => inside same
  · rintro after same rfl
    exact onward same rfl

theorem lines_of_not_mem {line : List Char} (whole : '\n' ∉ line) :
    lines line = if line = [] then [] else [line] := by
  induction line with
  | nil => rfl
  | cons c rest ih =>
    have inside : c ≠ '\n' := fun same => whole (same ▸ List.mem_cons_self)
    have later : '\n' ∉ rest := fun mem => whole (List.mem_cons_of_mem _ mem)
    have onward : rest.head? ≠ some '\n' := fun first => later (List.mem_of_head? first)
    rw [lines_cons inside fun _ => onward, ih later]
    by_cases ended : rest = [] <;> simp [ended]

/-- A line feed ends a line, and takes a carriage return before it along. -/
theorem lines_append {line : List Char} (whole : '\n' ∉ line) (rest : List Char) :
    ∃ kept, (line = kept ∨ line = kept ++ ['\r']) ∧ lines (line ++ '\n' :: rest) = kept :: lines rest := by
  induction line with
  | nil => exact ⟨[], .inl rfl, rfl⟩
  | cons c more ih =>
    have inside : c ≠ '\n' := fun same => whole (same ▸ List.mem_cons_self)
    have later : '\n' ∉ more := fun mem => whole (List.mem_cons_of_mem _ mem)
    by_cases returned : more = [] ∧ c = '\r'
    · obtain ⟨rfl, rfl⟩ := returned
      exact ⟨[], .inr rfl, rfl⟩
    · have onward (same : c = '\r') : (more ++ '\n' :: rest).head? ≠ some '\n' := by
        cases more with
        | nil => exact absurd ⟨rfl, same⟩ returned
        | cons d more => exact fun first => later (Option.some.inj first ▸ List.mem_cons_self)
      obtain ⟨kept, shape, found⟩ := ih later
      refine ⟨c :: kept, ?_, ?_⟩
      · rcases shape with rfl | rfl
        · exact .inl rfl
        · exact .inr rfl
      · rw [List.cons_append, lines_cons inside onward, found]
        rfl

def item? (lead : String) (line : List Char) : Option String :=
  (option? lead.toList line).map String.ofList

def items (lead : String) (text : List Char) : List String := (lines text).filterMap (item? lead)

theorem options_eq (lead listing : String) : options lead listing = distinct (items lead listing.toList) :=
  rfl

section

variable {lead : String}

theorem item?_eq_some_iff {line : List Char} {option : String} :
    item? lead line = some option ↔ Lists lead.toList line option.toList := by
  rw [item?, Option.map_eq_some_iff, ← option?_eq_some_iff_lists]
  constructor
  · rintro ⟨chars, read, rfl⟩
    rwa [String.toList_ofList]
  · exact fun read => ⟨_, read, String.ofList_toList⟩

theorem items_line {line : List Char} (whole : '\n' ∉ line) : items lead line = (item? lead line).toList := by
  rw [items, lines_of_not_mem whole]
  split
  · next empty =>
    have nothing : item? lead [] = none := rfl
    rw [empty, nothing]
    rfl
  · rw [List.filterMap_cons]
    cases item? lead line <;> rfl

theorem items_append {line : List Char} (whole : '\n' ∉ line) (rest : List Char) :
    items lead (line ++ '\n' :: rest) = (item? lead line).toList ++ items lead rest := by
  obtain ⟨kept, shape, found⟩ := lines_append whole rest
  have same : item? lead kept = item? lead line := by
    rcases shape with rfl | rfl
    · rfl
    · rw [item?, item?, option?_carriageReturn]
  rw [items, found, List.filterMap_cons, same]
  cases item? lead line <;> rfl

theorem items_join (first second : List Char) :
    items lead (first ++ '\n' :: second) = items lead first ++ items lead second := by
  induction first using line_induction with
  | last line whole => rw [items_append whole, items_line whole]
  | more line rest whole ih =>
    rw [List.append_assoc, List.cons_append, items_append whole, ih, items_append whole, List.append_assoc]

end

theorem hasLine_of_not_mem {text before line : List Char} (whole : '\n' ∉ text) :
    HasLine text before line ↔ before = [] ∧ line = text := by
  constructor
  · rintro ⟨after, rfl, starts, -, ends⟩
    have first : before = [] := by
      cases last : before.getLast? with
      | none => exact List.getLast?_eq_none_iff.mp last
      | some c =>
        have feed := starts c last
        exact absurd (List.mem_append_left _ (List.mem_of_getLast? last)) (feed ▸ whole)
    have rest : after = [] := by
      cases next : after.head? with
      | none => exact List.head?_eq_none_iff.mp next
      | some c =>
        have feed := ends c next
        exact absurd (List.mem_append_right _ (List.mem_append_right _ (List.mem_of_head? next))) (feed ▸ whole)
    simp [first, rest]
  · rintro ⟨rfl, rfl⟩
    exact ⟨[], by simp, nofun, whole, nofun⟩

theorem eq_of_first_line {first rest line after : List Char} (whole : '\n' ∉ first) (inside : '\n' ∉ line)
    (ends : ∀ c ∈ after.head?, c = '\n') (h : first ++ '\n' :: rest = line ++ after) : line = first := by
  rcases List.append_eq_append_iff.mp h with ⟨more, rfl, split⟩ | ⟨more, rfl, split⟩
  · cases more with
    | nil => simp
    | cons c more =>
      obtain ⟨rfl, -⟩ := List.cons.inj split
      simp at inside
  · cases more with
    | nil => simp
    | cons c more =>
      obtain rfl := ends c (by simp [split])
      simp at whole

theorem exists_of_line_feed {first rest earlier tail : List Char} (whole : '\n' ∉ first)
    (h : first ++ '\n' :: rest = earlier ++ '\n' :: tail) :
    ∃ within, earlier ++ ['\n'] = first ++ '\n' :: within ∧ rest = within ++ tail ∧
      ∀ c ∈ within.getLast?, c = '\n' := by
  rcases List.append_eq_append_iff.mp h with ⟨more, rfl, split⟩ | ⟨more, rfl, split⟩
  · cases more with
    | nil => exact ⟨[], by simp, (List.cons.inj split).2, nofun⟩
    | cons c more =>
      obtain ⟨rfl, rfl⟩ := List.cons.inj split
      exact ⟨more ++ ['\n'], by simp, by simp, by simp⟩
  · cases more with
    | nil => exact ⟨[], by simp, (List.cons.inj split).2.symm, nofun⟩
    | cons c more =>
      obtain ⟨rfl, -⟩ := List.cons.inj split
      simp at whole

theorem hasLine_append {first rest before line : List Char} (whole : '\n' ∉ first) :
    HasLine (first ++ '\n' :: rest) before line ↔ before = [] ∧ line = first ∨
      ∃ within, before = first ++ '\n' :: within ∧ HasLine rest within line := by
  constructor
  · rintro ⟨after, shape, starts, inside, ends⟩
    cases last : before.getLast? with
    | none =>
      obtain rfl := List.getLast?_eq_none_iff.mp last
      exact .inl ⟨rfl, eq_of_first_line whole inside ends shape⟩
    | some c =>
      obtain rfl := starts c last
      obtain ⟨earlier, rfl⟩ := List.getLast?_eq_some_iff.mp last
      rw [List.append_assoc, List.singleton_append] at shape
      obtain ⟨within, same, tail, feeds⟩ := exists_of_line_feed whole shape
      exact .inr ⟨within, same, after, tail, feeds, inside, ends⟩
  · rintro (⟨rfl, rfl⟩ | ⟨within, rfl, after, rfl, starts, inside, ends⟩)
    · exact ⟨'\n' :: rest, by simp, nofun, whole, by simp⟩
    · refine ⟨after, by simp, fun c last => ?_, inside, ends⟩
      cases within with
      | nil => simpa [eq_comm] using last
      | cons d more =>
        rw [List.getLast?_append_cons, List.getLast?_cons_cons] at last
        exact starts c last

theorem exists_places (lead : String) (text : List Char) :
    ∃ places : List (List Char × String), places.map Prod.snd = items lead text ∧
      (∀ before option, (before, option) ∈ places ↔
        ∃ line, HasLine text before line ∧ Lists lead.toList line option.toList) ∧
      places.Pairwise fun a b => a.1.length < b.1.length := by
  simp only [← item?_eq_some_iff]
  induction text using line_induction with
  | last line whole =>
    refine ⟨(item? lead line).toList.map ([], ·), ?_, fun before option => ?_, ?_⟩
    · simp [items_line whole]
    · simp [hasLine_of_not_mem whole, and_comm]
    · cases item? lead line <;> simp
  | more line rest whole ih =>
    obtain ⟨places, found, listed, ordered⟩ := ih
    -- The first line stands at the front, and each place of the rest behind it and its line feed.
    refine ⟨(item? lead line).toList.map ([], ·) ++ places.map (Prod.map (line ++ '\n' :: ·) id), ?_,
      fun before option => ?_, ?_⟩
    · simp [items_append whole, ← found]
    · simp only [List.mem_append, hasLine_append whole, or_and_right, exists_or]
      refine or_congr (by simp [and_comm]) ?_
      constructor
      · intro mem
        obtain ⟨⟨within, listing⟩, known, same⟩ := List.mem_map.mp mem
        obtain ⟨rfl, rfl⟩ := Prod.mk.inj same
        obtain ⟨other, place, read⟩ := (listed within listing).mp known
        exact ⟨other, ⟨within, rfl, place⟩, read⟩
      · rintro ⟨other, ⟨within, rfl, place⟩, read⟩
        exact List.mem_map.mpr ⟨(within, option), (listed within option).mpr ⟨other, place, read⟩, rfl⟩
    · refine List.pairwise_append.mpr ⟨?_, List.pairwise_map.mpr (ordered.imp ?_), ?_⟩
      · cases item? lead line <;> simp
      · intro a b less
        simpa using less
      · intro a first b later
        obtain ⟨option, -, rfl⟩ := List.mem_map.mp first
        obtain ⟨place, -, rfl⟩ := List.mem_map.mp later
        simp

theorem pairwise_distinct {places : List (List Char × String)}
    (ordered : places.Pairwise fun a b => a.1.length < b.1.length) :
    (distinct (places.map Prod.snd)).Pairwise fun a b => ∃ before, (before, a) ∈ places ∧
      ∀ other, (other, b) ∈ places → before.length < other.length := by
  induction places with
  | nil => exact .nil
  | cons place rest ih =>
    obtain ⟨first, later⟩ := List.pairwise_cons.mp ordered
    refine List.pairwise_cons.mpr ⟨fun b mem => ?_, ?_⟩
    · have apart : b ≠ place.2 := by simpa using (List.mem_filter.mp mem).2
      refine ⟨place.1, List.mem_cons_self, fun other known => ?_⟩
      rcases List.mem_cons.mp known with same | known
      · exact absurd (congrArg Prod.snd same) apart
      · exact first _ known
    · refine ((ih later).filter _).imp_of_mem fun {a b} _ mem stands => ?_
      have apart : b ≠ place.2 := by simpa using (List.mem_filter.mp mem).2
      obtain ⟨before, known, least⟩ := stands
      refine ⟨before, List.mem_cons_of_mem _ known, fun other known => ?_⟩
      rcases List.mem_cons.mp known with same | known
      · exact absurd (congrArg Prod.snd same) apart
      · exact least other known

theorem distinct_append {α : Type} [DecidableEq α] (first second : List α) :
    distinct (first ++ second) = distinct first ++ (distinct second).filter (· ∉ distinct first) := by
  induction first with
  | nil => simp [distinct]
  | cons a rest ih =>
    rw [List.cons_append, distinct, distinct, ih, List.filter_append, List.filter_filter, List.cons_append]
    congr 2
    refine List.filter_congr fun b _ => ?_
    by_cases same : b = a <;> simp [same, mem_distinct]

theorem scanned_options (lead listing : String) : Scanned lead listing (options lead listing) := by
  obtain ⟨places, found, listed, ordered⟩ := exists_places lead listing.toList
  have same : options lead listing = distinct (places.map Prod.snd) := congrArg distinct found.symm
  refine ⟨fun option => ?_, nodup_distinct _, ?_⟩
  · rw [same, mem_distinct, List.mem_map]
    constructor
    · rintro ⟨⟨before, _⟩, known, rfl⟩
      exact ⟨before, (listed before _).mp known⟩
    · rintro ⟨before, line, stands⟩
      exact ⟨(before, option), (listed before option).mpr ⟨line, stands⟩, rfl⟩
  · rw [same]
    have first_lines := pairwise_distinct ordered
    simp only [listed] at first_lines
    exact first_lines

theorem options_join (lead first second : String) : options lead (first ++ "\n" ++ second) =
    options lead first ++ (options lead second).filter (· ∉ options lead first) := by
  have whole : (first ++ "\n" ++ second).toList = first.toList ++ '\n' :: second.toList := by simp
  rw [options_eq, whole, items_join, distinct_append]
  rfl

theorem switches_join (first second : String) (category : Category) :
    switches (first ++ "\n" ++ second) category =
      switches first category ++ (switches second category).filter (· ∉ switches first category) := by
  have same {text : String} {texts : List String} :
      Candidate.ofText text ∈ texts.map Candidate.ofText ↔ text ∈ texts :=
    List.mem_map_of_injective fun a b same => congrArg Candidate.text same
  rw [switches, options_join, List.map_append, switches, switches, List.filter_map]
  simp only [Function.comp_def, same]

/-- The scans of a listing give what its lines list, each option once, in the order of first lines and under
the category that was asked for; the options of a second listing join those of a first one before it. -/
theorem listings_scanned_by_lines :
    (∀ listing category, Scanned category.lead listing ((switches listing category).map Candidate.text) ∧
      ∀ c ∈ switches listing category, c.category = category) ∧
    (∀ first second category, switches (first ++ "\n" ++ second) category =
      switches first category ++ (switches second category).filter (· ∉ switches first category)) ∧
    (∀ listing, Scanned "" listing (parameters listing)) ∧
    ∀ first second, parameters (first ++ "\n" ++ second) =
      parameters first ++ (parameters second).filter (· ∉ parameters first) := by
  refine ⟨fun listing category => ⟨?_, fun c => category_eq_of_mem_switches⟩, switches_join,
    scanned_options "", options_join ""⟩
  rw [texts_switches]
  exact scanned_options category.lead listing

end FlagSurvey.Listing
