import ScriptDoc.Proofs.Outcome
import ScriptDoc.Proofs.Page.OptionLines
import ScriptDoc.Proofs.Site.View

/-!
# Replies — what a directive adds to its page

A directive that names a file mentions it twice: in a comment in the text, and in a block in the
metadata.

- `Mention`                   : a file, and the entities that are shown of it
- `Mention.commentOf`         : the comment in the text, also where no file is named
- `Mention.told?`, `Mention.listed?` : the file and the number, read off a comment and off a block
- `Metadata.Adds`             : blocks added to metadata, and nothing else changed
- `Site.mention?`             : what a directive mentions
- `Site.RepliesWith`          : ways to answer directives that do both, or fail
-/

namespace ScriptDoc

open Text

/-! ## Mentions -/

structure Mention where
  file : String
  entities : List Entity

namespace Mention

def block (m : Mention) : Value :=
  Site.block m.file m.entities

def opening : List Char :=
  "<!-- dox: ".toList

def beforeCount : List Char :=
  " (".toList

def closing : List Char :=
  " entities) -->".toList

def comment (file : String) (count : Nat) : List Char :=
  opening ++ (file.toList ++ (beforeCount ++ (Nat.toDigits 10 count ++ closing)))

/-- The comment that a directive leaves, also where it mentions no file. -/
def commentOf : Option Mention → List Char
  | none => "<!-- dox: missing :file: for js:autodoc -->".toList
  | some m => comment m.file m.entities.length

def blocksOf (mentions : List (Option Mention)) : List Value :=
  mentions.filterMap (Option.map block)

theorem blocksOf_append (mentions others : List (Option Mention)) :
    blocksOf (mentions ++ others) = blocksOf mentions ++ blocksOf others :=
  List.filterMap_append

/-- The file and the number of entities that a comment tells of. They are told apart from the end,
since the name of a file may hold anything. -/
def told? (comment : List Char) : Option (String × Nat) := do
  let start ← after? opening comment
  let back ← after? closing.reverse start.reverse
  let file ← after? beforeCount.reverse (back.dropWhile Char.isDigit)
  pure (String.ofList file.reverse, Nat.ofDigitChars 10 (back.takeWhile Char.isDigit).reverse 0)

/-- The file and the number of entities of a block. -/
def listed? : Value → Option (String × Nat)
  | .object fields =>
      match Keyed.get? "file" fields, Keyed.get? "entities" fields with
      | some (.text file), some (.list entities) => some (file, entities.length)
      | _, _ => none
  | _ => none

theorem missingFileComment_eq : Site.missingFileComment = commentOf none ++ ['\n'] := by
  decide

theorem fileComment_eq (file : String) (count : Nat) :
    Site.fileComment file count = comment file count ++ ['\n'] := by
  have hcount : (toString count).toList = Nat.toDigits 10 count := by
    simp only [Nat.toString_eq_repr, Nat.toList_repr]
  have hclosing : " entities) -->\n".toList = closing ++ ['\n'] := by
    decide
  have hassoc : ∀ a b c d e : List Char,
      a ++ b ++ c ++ d ++ (e ++ ['\n']) = a ++ (b ++ (c ++ (d ++ e))) ++ ['\n'] := by
    simp
  calc
    Site.fileComment file count
        = opening ++ file.toList ++ beforeCount ++ (toString count).toList ++
            " entities) -->\n".toList := by
          simp only [Site.fileComment, String.toList_append]
          rfl
    _ = opening ++ file.toList ++ beforeCount ++ Nat.toDigits 10 count ++
            (closing ++ ['\n']) := by
          rw [hcount]
          exact congrArg (_ ++ ·) hclosing
    _ = comment file count ++ ['\n'] :=
          hassoc opening file.toList beforeCount (Nat.toDigits 10 count) closing

theorem told?_comment (file : String) (count : Nat) :
    told? (comment file count) = some (file, count) := by
  let digits := Nat.toDigits 10 count
  let back := digits.reverse ++ (beforeCount.reverse ++ file.toList.reverse)
  have hall : ∀ c ∈ digits.reverse, c.isDigit = true := fun c hc =>
    Nat.isDigit_of_mem_toDigits (by decide) (by decide) (List.mem_reverse.1 hc)
  have hstart : after? opening (comment file count) =
      some (file.toList ++ (beforeCount ++ (digits ++ closing))) :=
    after?_eq_some_iff.2 rfl
  have hback : after? closing.reverse
      (file.toList ++ (beforeCount ++ (digits ++ closing))).reverse = some back :=
    after?_eq_some_iff.2 (by simp [back])
  -- The digits end at the blank before the bracket, whatever the name of the file ends with.
  have hdrop : back.dropWhile Char.isDigit = beforeCount.reverse ++ file.toList.reverse :=
    List.dropWhile_append_of_pos hall
  have htake : back.takeWhile Char.isDigit = digits.reverse := by
    have hstop : (beforeCount.reverse ++ file.toList.reverse).takeWhile Char.isDigit = [] :=
      rfl
    simp only [back, List.takeWhile_append_of_pos hall, hstop, List.append_nil]
  have hfile : after? beforeCount.reverse (back.dropWhile Char.isDigit) =
      some file.toList.reverse :=
    after?_eq_some_iff.2 hdrop
  have hcount : Nat.ofDigitChars 10 digits 0 = count :=
    Nat.ofDigitChars_ten_toDigits
  simp only [told?, hstart, hback, hfile, htake, Option.bind_eq_bind, Option.bind_some,
    List.reverse_reverse, String.ofList_toList, hcount]
  rfl

theorem told?_commentOf (mention : Option Mention) :
    told? (commentOf mention) = mention.map fun m => (m.file, m.entities.length) := by
  cases mention with
  | none =>
      decide +kernel
  | some m =>
      exact told?_comment m.file m.entities.length

theorem listed?_block (m : Mention) : listed? m.block = some (m.file, m.entities.length) := by
  simp [block, Site.block, listed?, Keyed.get?]

/-- Mentions with the same block have the same comment. -/
theorem commentOf_congr {mention other : Option Mention}
    (h : mention.map block = other.map block) : commentOf mention = commentOf other := by
  cases mention with
  | none =>
      cases other with
      | none =>
          rfl
      | some m' =>
          cases h
  | some m =>
      cases other with
      | none =>
          cases h
      | some m' =>
          have hlisted : some (m.file, m.entities.length) = some (m'.file, m'.entities.length) := by
            simpa [listed?_block] using congrArg (Option.bind · listed?) h
          rcases Prod.mk.inj (Option.some.inj hlisted) with ⟨hfile, hcount⟩
          exact congrArg₂ comment hfile hcount

theorem blocksOf_append_single (earlier : List (Option Mention)) (mention : Option Mention) :
    blocksOf (earlier ++ [mention]) = blocksOf earlier ++ (mention.map block).toList := by
  cases mention with
  | none =>
      exact blocksOf_append earlier [none]
  | some m =>
      exact blocksOf_append earlier [some m]

/-- Of two mentions that come after the same ones, the blocks decide whether they are alike. -/
theorem alike_append_iff {earlier : List (Option Mention)} {mention other : Option Mention} :
    (earlier ++ [mention]).map commentOf = (earlier ++ [other]).map commentOf ∧
        blocksOf (earlier ++ [mention]) = blocksOf (earlier ++ [other]) ↔
      mention.map block = other.map block := by
  rw [blocksOf_append_single, blocksOf_append_single]
  constructor
  · rintro ⟨-, hblocks⟩
    simpa using congrArg List.head? (List.append_cancel_left hblocks)
  · intro hsame
    simp only [List.map_append, List.map_cons, commentOf_congr hsame, hsame, and_self]

theorem told?_commentOf_eq_listed? (mentions : List (Option Mention)) :
    ((mentions.map commentOf).filterMap told?).map some = (blocksOf mentions).map listed? := by
  induction mentions with
  | nil =>
      rfl
  | cons mention mentions ih =>
      cases mention with
      | none =>
          simpa [blocksOf, told?_commentOf] using ih
      | some m =>
          simpa [blocksOf, told?_commentOf, listed?_block] using ih

end Mention

/-! ## Metadata -/

namespace Metadata

/-- The list under a key; a missing entry is as good as an empty list. -/
def listAt? (key : MetadataKey) (metadata : Metadata) : Option (List Value) :=
  match metadata.get? key with
  | none => some []
  | some (.list items) => some items
  | some _ => none

/-- Blocks come after those that are under the key already, and all other entries stay. Where no
block comes, nothing changes at all. -/
inductive Adds (key : Option MetadataKey) : List Value → Metadata → Metadata → Prop where
  | nothing (metadata : Metadata) : Adds key [] metadata metadata
  | under {own : MetadataKey} {old blocks : List Value} {before after : Metadata} :
      key = some own → blocks ≠ [] → before.listAt? own = some old →
        after.get? own = some (.list (old ++ blocks)) →
          (∀ other, other.identity ≠ own.identity → after.get? other = before.get? other) →
            Adds key blocks before after

variable {key : Option MetadataKey} {blocks others : List Value} {before between after : Metadata}

namespace Adds

theorem trans (h : Adds key blocks before between) (h' : Adds key others between after) :
    Adds key (blocks ++ others) before after := by
  cases h with
  | nothing =>
      exact h'
  | @under own old _ _ _ hkey hblocks hold hnew hrest =>
      cases h' with
      | nothing =>
          simpa using Adds.under hkey hblocks hold hnew hrest
      | @under own' old' _ _ _ hkey' hothers hold' hnew' hrest' =>
          cases hkey.symm.trans hkey'
          -- The second time all that was there after the first time is old.
          have hsame : old' = old ++ blocks := by
            simpa [listAt?, hnew, eq_comm] using hold'
          refine .under hkey (by simp [hblocks]) hold ?_ fun other hother =>
            (hrest' other hother).trans (hrest other hother)
          simpa [hsame] using hnew'

theorem blocks_eq (h : Adds key blocks before after) (h' : Adds key others before after) :
    blocks = others := by
  -- Blocks that have come make a difference to the list under the key.
  have hchange : ∀ {own : MetadataKey} {old blocks : List Value} {metadata : Metadata},
      blocks ≠ [] → metadata.listAt? own = some old →
        metadata.get? own ≠ some (.list (old ++ blocks)) := by
    intro own old blocks metadata hblocks hold hnew
    simp [listAt?, hnew, hblocks] at hold
  cases h with
  | nothing =>
      cases h' with
      | nothing =>
          rfl
      | under hkey hothers hold hnew hrest =>
          exact absurd hnew (hchange hothers hold)
  | under hkey hblocks hold hnew hrest =>
      cases h' with
      | nothing =>
          exact absurd hnew (hchange hblocks hold)
      | under hkey' hothers hold' hnew' hrest' =>
          cases hkey.symm.trans hkey'
          cases hold.symm.trans hold'
          simpa using hnew.symm.trans hnew'

theorem get?_eq {own : MetadataKey} {old : List Value} (h : Adds (some own) blocks before after)
    (hblocks : blocks ≠ []) (hold : before.listAt? own = some old) :
    after.get? own = some (.list (old ++ blocks)) := by
  cases h with
  | nothing =>
      exact absurd rfl hblocks
  | under hkey _ hold' hnew _ =>
      cases hkey
      cases hold.symm.trans hold'
      exact hnew

end Adds
end Metadata

namespace Site

theorem adds_of_appendBlock {key : Option MetadataKey} {block : Value} {metadata next : Metadata}
    (h : appendBlock key block metadata = .ok next) : metadata.Adds key [block] next := by
  cases key with
  | none =>
      cases h
  | some own =>
      -- Either way the list under the key is put back, one block longer.
      have hput : ∀ {old : List Value}, metadata.listAt? own = some old →
          next = metadata.put own (.list (old ++ [block])) →
            Metadata.Adds (some own) [block] metadata next := by
        rintro old hold rfl
        exact .under rfl (by simp) hold (Metadata.get?_put_same rfl _ _)
          fun other hother => Metadata.get?_put_other hother _ _
      simp only [appendBlock] at h
      split at h
      · next hnone =>
        have hold : metadata.listAt? own = some [] := by simp only [Metadata.listAt?, hnone]
        exact hput hold (Except.ok.inj h).symm
      · next old hsome =>
        have hold : metadata.listAt? own = some old := by simp only [Metadata.listAt?, hsome]
        exact hput hold (Except.ok.inj h).symm
      · cases h

/-! ## Directives -/

/-- The entities of a file that a directive with these options shows. -/
def shownWith (site : Site) (options : Keyed String) (entities : List Entity) : List Entity :=
  if showsPrivate site.config options then entities else entities.filter (!·.isPrivate)

/-- All entities of a file, whether or not a directive shows them. -/
def listed (site : Site) (tree : FileTree) (file : String) : List Entity :=
  (site.shown? tree (site.resolve file)).getD []

/-- What a directive mentions: the file that it names, with the entities of it that it shows. -/
def mention? (site : Site) (tree : FileTree) (options : Keyed String) : Option Mention :=
  let file := fileOf options
  if file.isEmpty then none
  else some ⟨file, site.shownWith options ((site.shown? tree (site.resolve file)).getD [])⟩

variable {site other : Site} {tree : FileTree} {metadata : Metadata} {options : Keyed String}
  {m : Mention}

theorem mention?_of_file (site : Site) (tree : FileTree) (h : (fileOf options).isEmpty = false) :
    let file := fileOf options
    site.mention? tree options = some ⟨file, site.shownWith options (site.listed tree file)⟩ :=
  if_neg (Bool.eq_false_iff.1 h)

theorem mention?_eq_none_iff : site.mention? tree options = none ↔ fileOf options = "" := by
  simp [mention?]

theorem of_mention?_eq_some (h : site.mention? tree options = some m) :
    m.file = fileOf options ∧ m.entities = site.shownWith options (site.listed tree m.file) := by
  simp only [mention?] at h
  split at h
  · cases h
  · cases h
    exact ⟨rfl, rfl⟩

theorem mention?_congr (h : SameView tree site other) (options : Keyed String) :
    site.mention? tree options = other.mention? tree options := by
  simp only [mention?, shownWith, resolve_congr h, h.shown?, showsPrivate_congr h]

/-- The text and the metadata that a run leaves are the comment and the block of what a directive
mentions, and other directives see of the site what they saw before. -/
structure IsReply (site : Site) (tree : FileTree) (metadata : Metadata) (options : Keyed String)
    (run : PageRun) (text : List Char) : Prop where
  view : SameView tree run.site site
  comment : text = Mention.commentOf (site.mention? tree options) ++ ['\n']
  adds : metadata.Adds site.config.metadataKey (Mention.blocksOf [site.mention? tree options])
    run.metadata

/-- Without a fault all directives are replied to. -/
def RepliesWith (tree : FileTree) (respond : Site → Metadata → Keyed String → PageRun) : Prop :=
  ∀ ⦃site metadata options text⦄, (respond site metadata options).text = .ok text →
    IsReply site tree metadata options (respond site metadata options) text

theorem reply_eq (site : Site) (metadata : Metadata) (options : Keyed String)
    (entities : List Entity) :
    let m : Mention := ⟨fileOf options, site.shownWith options entities⟩
    let appended := appendBlock site.config.metadataKey m.block metadata
    site.reply metadata options entities = (appended.toOption.getD metadata,
      appended.map fun _ => fileComment m.file m.entities.length) := by
  intro m appended
  unfold reply
  dsimp only
  split
  · next fault hfault =>
    have hsame : appended = .error fault := hfault
    rw [hsame]
    rfl
  · next next hnext =>
    have hsame : appended = .ok next := hnext
    rw [hsame]
    rfl

/-- A directive that names no file is told so, and any other one is replied to. -/
theorem isReply_answer {text : List Char} (h : (site.answer tree metadata options).text = .ok text) :
    IsReply site tree metadata options (site.answer tree metadata options) text := by
  cases hfile : (fileOf options).isEmpty with
  | true =>
      have hnone : site.mention? tree options = none := if_pos hfile
      rw [answer_of_no_file hfile] at h ⊢
      exact
        { view := SameView.refl tree site
          comment := by
            rw [hnone]
            exact (Except.ok.inj h).symm.trans Mention.missingFileComment_eq
          adds := by
            rw [hnone]
            exact .nothing metadata }
  | false =>
      let entities := (site.shown? tree (site.resolve (fileOf options))).getD []
      let m : Mention := ⟨fileOf options, site.shownWith options entities⟩
      have hsome : site.mention? tree options = some m := if_neg (Bool.eq_false_iff.1 hfile)
      simp only [answer_of_file hfile, reply_eq] at h ⊢
      rcases Outcome.map_eq_ok_iff.1 h with ⟨next, happend, rfl⟩
      exact
        { view := sameView_entitiesOf site tree _
          comment := by
            rw [hsome]
            exact Mention.fileComment_eq m.file m.entities.length
          adds := by
            simp only [hsome, happend]
            exact adds_of_appendBlock happend }

/-- Before there are options, only directives that name no file come out without a fault. -/
theorem isReply_refuse {text : List Char} (h : (site.refuse tree metadata options).text = .ok text) :
    IsReply site tree metadata options (site.refuse tree metadata options) text := by
  cases hfile : (fileOf options).isEmpty with
  | true =>
      have hrefuse : site.refuse tree metadata options = site.answer tree metadata options :=
        (if_pos hfile).trans (if_pos hfile).symm
      rw [hrefuse] at h ⊢
      exact isReply_answer h
  | false =>
      have hfault : (site.refuse tree metadata options).text = .error .unconfigured :=
        congrArg PageRun.text (if_neg (Bool.eq_false_iff.1 hfile))
      cases hfault.symm.trans h

theorem repliesWith_answer (tree : FileTree) :
    RepliesWith tree fun site metadata options => site.answer tree metadata options :=
  fun _ _ _ _ h => isReply_answer h

theorem repliesWith_refuse (tree : FileTree) :
    RepliesWith tree fun site metadata options => site.refuse tree metadata options :=
  fun _ _ _ _ h => isReply_refuse h

end Site
end ScriptDoc
