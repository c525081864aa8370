import Mathlib.Data.List.Nodup
import ScriptDoc.Proofs.Page.OptionLines
import ScriptDoc.Proofs.Site.Answer

/-!
# HeardLines — which option lines are read

A line with a blank value takes the next line for its value, if it has not been taken itself. What is
taken is not read for the option that it names, and neither is a last line with nothing after its
colon. Of the lines for one name that are read, the last one counts.

- `OptionLine.takesNext`         : whether the line after some lines is taken
- `OptionLine.Place`             : a line among the lines before and after it
- `OptionLine.places`, `OptionLine.heard` : the lines as they are written, and those that are read
- `OptionLine.get?_read`         : the value of an option is that of its last line that is read
- `OptionLine.FillsFile`, `OptionLine.TakesFile` : when the lines name a file, as they are written and
  as they are read
- `OptionLine.takesFile_iff_fillsFile_iff` : when that comes to the same
- `OptionLine.asks`              : whether the lines ask for private entities
-/

namespace ScriptDoc

open Text

namespace OptionLine

/-! ## Places -/

/-- Whether the line after these lines is taken for a value: the last of them has a blank value, and
has not been taken itself. -/
def takesNext (before : List OptionLine) : Bool :=
  before.foldl (fun taken o => !taken && o.isBlankValue) false

structure Place where
  upTo : List OptionLine
  line : OptionLine
  after : List OptionLine
  deriving DecidableEq, Repr

namespace Place

/-- The same line with one more before all others. -/
def below (first : OptionLine) (p : Place) : Place :=
  { p with upTo := first :: p.upTo }

def isHeard (p : Place) : Bool :=
  !takesNext p.upTo && !(p.after.isEmpty && p.line.value.isEmpty)

/-- What is read off a line: the text after its colon, or else the line after it. -/
def value (p : Place) : List Char :=
  match p.after with
  | [] => trim p.line.value
  | next :: _ => trim (if p.line.isBlankValue then next.asWritten else p.line.value)

end Place

/-- All lines in order, each in its place. -/
def places : List OptionLine → List Place
  | [] => []
  | o :: after => ⟨[], o, after⟩ :: (places after).map (Place.below o)

variable {options : List OptionLine} {o : OptionLine} {p : Place} {name : List Char}

theorem mem_places_iff : p ∈ places options ↔ options = p.upTo ++ p.line :: p.after := by
  induction options generalizing p with
  | nil =>
      simp [places]
  | cons first rest ih =>
      rcases p with ⟨upTo, o, after⟩
      cases upTo with
      | nil =>
          simp [places, Place.below, eq_comm]
      | cons head upTo =>
          constructor
          · intro h
            rcases List.mem_cons.1 h with hhead | hbelow
            · cases hhead
            · rcases List.mem_map.1 hbelow with ⟨q, hq, hsame⟩
              cases hsame
              exact congrArg (first :: ·) (ih.1 hq)
          · intro h
            rcases List.cons.inj h with ⟨rfl, hrest⟩
            exact List.mem_cons_of_mem _
              (List.mem_map.2 ⟨⟨upTo, o, after⟩, ih.2 hrest, rfl⟩)

/-- The lines that are read. -/
def heard (options : List OptionLine) : List Place :=
  (places options).filter Place.isHeard

/-- The last of some lines with a name on it. -/
def lastFor? (name : List Char) (all : List Place) : Option Place :=
  all.reverse.find? fun p => p.line.name = name

/-! ## Reading -/

theorem isHeard_below (h : o.isBlankValue = false) (p : Place) :
    (p.below o).isHeard = p.isHeard := by
  simp [Place.isHeard, Place.below, takesNext, h]

/-- A line that is taken does not take the next one. -/
theorem isHeard_below_below (h : o.isBlankValue = true) (next : OptionLine) (p : Place) :
    ((p.below next).below o).isHeard = p.isHeard := by
  simp [Place.isHeard, Place.below, takesNext, h]

theorem filter_isHeard_map {shift : Place → Place} (h : ∀ p, (shift p).isHeard = p.isHeard)
    (all : List Place) :
    (all.map shift).filter Place.isHeard = (all.filter Place.isHeard).map shift := by
  rw [List.filter_map]
  exact congrArg (List.map shift) (List.filter_congr fun p _ => h p)

theorem heard_cons {next : OptionLine} {rest : List OptionLine} (h : o.isBlankValue = false) :
    heard (o :: next :: rest) =
      ⟨[], o, next :: rest⟩ :: (heard (next :: rest)).map (Place.below o) := by
  have hfirst : Place.isHeard ⟨[], o, next :: rest⟩ = true := rfl
  rw [heard, places, List.filter_cons_of_pos hfirst, filter_isHeard_map (isHeard_below h), heard]

theorem heard_cons_cons {next : OptionLine} {rest : List OptionLine} (h : o.isBlankValue = true) :
    heard (o :: next :: rest) =
      ⟨[], o, next :: rest⟩ :: (heard rest).map fun p => (p.below next).below o := by
  have hfirst : Place.isHeard ⟨[], o, next :: rest⟩ = true := rfl
  have htaken : ¬Place.isHeard (Place.below o ⟨[], next, rest⟩) = true := by
    simp [Place.isHeard, Place.below, takesNext, h]
  have hrest := filter_isHeard_map (isHeard_below_below h next) (places rest)
  rw [heard, places, List.filter_cons_of_pos hfirst, places, List.map_cons,
    List.filter_cons_of_neg htaken, List.map_map]
  exact congrArg (_ :: ·) hrest

/-- Each line that is read gives the name on it and its value. -/
theorem pairs_eq (options : List OptionLine) :
    pairs options = (heard options).map fun p => (p.line.name, p.value) := by
  fun_induction pairs options with
  | case1 =>
      rfl
  | case2 o hempty =>
      simp [heard, places, Place.isHeard, hempty]
  | case3 o hvalue =>
      simp [heard, places, Place.isHeard, Place.value, takesNext, hvalue]
  | case4 o next rest hblank ih =>
      have hvalue : Place.value ⟨[], o, next :: rest⟩ = trim next.asWritten := by
        simp [Place.value, hblank]
      rw [heard_cons_cons hblank, ih, List.map_cons, hvalue, List.map_map]
      rfl
  | case5 o next rest hblank ih =>
      have hsolid : o.isBlankValue = false := Bool.eq_false_iff.2 hblank
      have hvalue : Place.value ⟨[], o, next :: rest⟩ = trim o.value := by
        simp [Place.value, hsolid]
      rw [heard_cons hsolid, ih, List.map_cons, hvalue, List.map_map]
      rfl

/-- Of values that are put one after the other the last one for a name stays. -/
theorem get?_foldl_put (all : List (List Char × List Char)) (entries : Keyed String) :
    (all.foldl (fun all (name, value) =>
        Keyed.put (String.ofList name) (String.ofList value) all) entries).get?
          (String.ofList name) =
      ((all.reverse.find? (·.1 = name)).map fun pair => String.ofList pair.2).or
        (entries.get? (String.ofList name)) := by
  induction all generalizing entries with
  | nil =>
      rfl
  | cons pair all ih =>
      rw [List.foldl_cons, ih, Keyed.get?_put, List.reverse_cons, List.find?_append]
      cases all.reverse.find? (·.1 = name) with
      | some last =>
          rfl
      | none =>
          by_cases hname : pair.1 = name
          · simp [hname]
          · have hne : String.ofList name ≠ String.ofList pair.1 := fun hsame =>
              hname (String.ofList_injective hsame).symm
            simp [hname, hne]

theorem get?_read (name : List Char) (options : List OptionLine) :
    (read options).get? (String.ofList name) =
      (lastFor? name (heard options)).map fun p => String.ofList p.value := by
  rw [read, get?_foldl_put, pairs_eq, ← List.map_reverse, List.find?_map, Option.map_map]
  exact Option.or_none

/-! ## Last lines -/

variable {all : List Place}

theorem mem_of_lastFor? (h : lastFor? name all = some p) : p ∈ all ∧ p.line.name = name :=
  ⟨List.mem_reverse.1 (List.mem_of_find?_eq_some h), by simpa using List.find?_some h⟩

theorem lastFor?_eq_none_iff : lastFor? name all = none ↔ ∀ p ∈ all, p.line.name ≠ name := by
  simp [lastFor?]

/-- If no other line has the name, this one is the last. -/
theorem lastFor?_of_unique (hp : p ∈ all) (hname : p.line.name = name)
    (hunique : ∀ q ∈ all, q.line.name = name → q = p) : lastFor? name all = some p := by
  cases hlast : lastFor? name all with
  | none =>
      exact absurd hname (lastFor?_eq_none_iff.1 hlast p hp)
  | some q =>
      rcases mem_of_lastFor? hlast with ⟨hq, hqname⟩
      rw [hunique q hq hqname]

theorem mem_heard_iff : p ∈ heard options ↔ p ∈ places options ∧ p.isHeard = true :=
  List.mem_filter

theorem map_line_places (options : List OptionLine) : (places options).map Place.line = options := by
  induction options with
  | nil =>
      rfl
  | cons o after ih =>
      rw [places, List.map_cons, List.map_map]
      exact congrArg (o :: ·) ih

/-- Of lines with different names each has its own place. -/
theorem eq_of_name_eq (hnames : (options.map OptionLine.name).Nodup) {q : Place}
    (hp : p ∈ places options) (hq : q ∈ places options) (h : q.line.name = p.line.name) : q = p := by
  rw [← map_line_places options, List.map_map] at hnames
  exact List.inj_on_of_nodup_map hnames hq hp h

theorem lastFor?_places_of_nodup (hnames : (options.map OptionLine.name).Nodup)
    (hp : p ∈ places options) : lastFor? p.line.name (places options) = some p :=
  lastFor?_of_unique hp rfl fun _ hq hname => eq_of_name_eq hnames hp hq hname

theorem lastFor?_heard_of_nodup (hnames : (options.map OptionLine.name).Nodup)
    (hp : p ∈ places options) :
    lastFor? p.line.name (heard options) = if p.isHeard then some p else none := by
  have hunique : ∀ q ∈ heard options, q.line.name = p.line.name → q = p := fun q hq hname =>
    eq_of_name_eq hnames hp (mem_heard_iff.1 hq).1 hname
  cases hheard : p.isHeard with
  | true =>
      exact lastFor?_of_unique (mem_heard_iff.2 ⟨hp, hheard⟩) rfl hunique
  | false =>
      refine lastFor?_eq_none_iff.2 fun q hq hname => ?_
      have hread := (mem_heard_iff.1 hq).2
      rw [hunique q hq hname, hheard] at hread
      cases hread

/-! ## Files -/

theorem trim_asWritten (o : OptionLine) :
    trim o.asWritten = ':' :: trimEnd (o.name ++ ':' :: o.value) := by
  have hcolon : isBlank ':' = false := by decide
  have hstart : trimStart o.asWritten = o.asWritten := by
    simp [trimStart, asWritten, hcolon]
  rw [trim, hstart, asWritten, trimEnd_cons hcolon]

theorem Place.value_eq_nil_iff : p.value = [] ↔ p.line.isBlankValue = true ∧ p.after = [] := by
  rcases p with ⟨upTo, o, after⟩
  cases after with
  | nil =>
      have hnil : trim o.value = [] ↔ o.isBlankValue = true := trim_eq_nil_iff
      simp [Place.value, hnil]
  | cons next rest =>
      cases hblank : o.isBlankValue with
      | true =>
          simp [Place.value, hblank, trim_asWritten]
      | false =>
          have hvalue : trim o.value ≠ [] := fun hnil =>
            absurd (trim_eq_nil_iff.1 hnil) (Bool.eq_false_iff.1 hblank)
          simp [Place.value, hblank, hvalue]

/-- By the lines as they are written: the last one for the file has a value. -/
def FillsFile (options : List OptionLine) : Prop :=
  ∃ p, lastFor? "file".toList (places options) = some p ∧ p.line.isBlankValue = false

/-- By the lines that are read: the last one for the file has a value, or a line after it. -/
def TakesFile (options : List OptionLine) : Prop :=
  ∃ p, lastFor? "file".toList (heard options) = some p ∧
    (p.line.isBlankValue = false ∨ p.after ≠ [])

theorem fileOf_read (options : List OptionLine) :
    Site.fileOf (read options) =
      ((lastFor? "file".toList (heard options)).map fun p => String.ofList p.value).getD "" := by
  have hget := get?_read "file".toList options
  rw [String.ofList_toList] at hget
  rw [Site.fileOf, hget]

theorem fileOf_read_ne_empty_iff : Site.fileOf (read options) ≠ "" ↔ TakesFile options := by
  rw [fileOf_read, TakesFile]
  cases lastFor? "file".toList (heard options) with
  | none =>
      simp
  | some p =>
      have hvalue : String.ofList p.value ≠ "" ↔ ¬p.value = [] := by
        rw [← String.ofList_nil, ne_eq, String.ofList_inj]
      rw [Option.map_some, Option.getD_some, hvalue, Place.value_eq_nil_iff, not_and_or,
        Bool.not_eq_true]
      simp

theorem fillsFile_iff_of_nodup (hnames : (options.map OptionLine.name).Nodup)
    (hp : p ∈ places options) (hname : p.line.name = "file".toList) :
    FillsFile options ↔ p.line.isBlankValue = false := by
  rw [FillsFile, ← hname, lastFor?_places_of_nodup hnames hp]
  simp

theorem takesFile_iff_of_nodup (hnames : (options.map OptionLine.name).Nodup)
    (hp : p ∈ places options) (hname : p.line.name = "file".toList) :
    TakesFile options ↔
      takesNext p.upTo = false ∧ (p.line.isBlankValue = false ∨ p.after ≠ []) := by
  -- With a value, or with a line after it, it is read unless it is taken.
  have hheard : p.line.isBlankValue = false ∨ p.after ≠ [] →
      (p.isHeard = true ↔ takesNext p.upTo = false) := by
    rintro (hvalue | hafter)
    · have hsome : p.line.value ≠ [] := by
        intro hnil
        simp [isBlankValue, hnil] at hvalue
      simp [Place.isHeard, hsome]
    · simp [Place.isHeard, hafter]
  rw [TakesFile, ← hname, lastFor?_heard_of_nodup hnames hp, ← and_congr_left hheard]
  cases p.isHeard with
  | true => simp
  | false => simp

/-- A blank line for the file takes no other line, and one with a value is not taken. -/
def ReadsOwnFile (options : List OptionLine) : Prop :=
  ∀ p ∈ places options, p.line.name = "file".toList →
    if p.line.isBlankValue then takesNext p.upTo = true ∨ p.after = []
    else takesNext p.upTo = false

/-- So it is, where the names on the lines differ, if it comes to the same whether the lines are read
or taken as they are written. -/
theorem takesFile_iff_fillsFile_iff (hnames : (options.map OptionLine.name).Nodup) :
    (TakesFile options ↔ FillsFile options) ↔ ReadsOwnFile options := by
  have hplace : ∀ p ∈ places options, p.line.name = "file".toList →
      ((TakesFile options ↔ FillsFile options) ↔
        if p.line.isBlankValue then takesNext p.upTo = true ∨ p.after = []
        else takesNext p.upTo = false) := by
    intro p hp hname
    rw [takesFile_iff_of_nodup hnames hp hname, fillsFile_iff_of_nodup hnames hp hname]
    cases p.line.isBlankValue with
    | true =>
        simp only [Bool.true_eq_false, false_or, iff_false, not_and_or, not_not, if_true,
          Bool.not_eq_false]
    | false => simp
  constructor
  · exact fun hsame p hp hname => (hplace p hp hname).1 hsame
  · intro hown
    by_cases hnamed : ∃ p ∈ places options, p.line.name = "file".toList
    · rcases hnamed with ⟨p, hp, hname⟩
      exact (hplace p hp hname).2 (hown p hp hname)
    · -- Without a line for the file there is none to be read either.
      have htakes : ¬TakesFile options := fun ⟨p, hlast, _⟩ =>
        hnamed ⟨p, (mem_heard_iff.1 (mem_of_lastFor? hlast).1).1, (mem_of_lastFor? hlast).2⟩
      have hfills : ¬FillsFile options := fun ⟨p, hlast, _⟩ =>
        hnamed ⟨p, (mem_of_lastFor? hlast).1, (mem_of_lastFor? hlast).2⟩
      exact iff_of_false htakes hfills

/-! ## Private entities -/

def yesWords : List (List Char) :=
  ["true".toList, "yes".toList, "1".toList]

/-- The value, in small letters, is one of the words for yes. -/
def saysYes (o : OptionLine) : Bool :=
  yesWords.contains (lower (trim o.value))

/-- What the last of some lines for `private` says; without one it is left to the site. -/
def asks (own : Bool) (all : List Place) : Bool :=
  (lastFor? "private".toList all).elim own (·.line.saysYes)

theorem contains_trueWords (word : List Char) :
    Site.trueWords.contains (String.ofList word) = yesWords.contains word := by
  have hwords : Site.trueWords = yesWords.map String.ofList := by
    rfl
  have hinjective : Function.Injective String.ofList := fun _ _ => String.ofList_injective
  rw [hwords, Bool.eq_iff_iff, List.contains_iff_mem, List.contains_iff_mem,
    List.mem_map_of_injective hinjective]

/-- A line that is taken for a value begins with a colon, as no such word does. -/
theorem contains_lower_value (p : Place) :
    yesWords.contains (lower p.value) = p.line.saysYes := by
  rcases p with ⟨upTo, o, after⟩
  cases after with
  | nil =>
      rfl
  | cons next rest =>
      cases hblank : o.isBlankValue with
      | true =>
          have hnil : trim o.value = [] := trim_eq_nil_iff.2 hblank
          have hcolon : ∀ s, yesWords.contains (lower (':' :: s)) = false := fun s => by
            have hlower : lower (':' :: s) = ':' :: lowerFrom [':'] s := rfl
            simp [hlower, yesWords]
          simp only [Place.value, hblank, if_true, trim_asWritten, hcolon, saysYes, hnil]
          rfl
      | false =>
          simp [Place.value, hblank, saysYes]

theorem showsPrivate_read (config : Config) (options : List OptionLine) :
    Site.showsPrivate config (read options) = asks config.includePrivate (heard options) := by
  have hget := get?_read "private".toList options
  rw [String.ofList_toList] at hget
  rw [Site.showsPrivate, hget, asks]
  cases lastFor? "private".toList (heard options) with
  | none =>
      rfl
  | some p =>
      have hvalue : (String.ofList p.value).toList = p.value := String.toList_ofList
      simp only [Option.map_some, hvalue, contains_trueWords, contains_lower_value]
      rfl

end OptionLine
end ScriptDoc
