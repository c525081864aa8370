import ScriptDoc.Site.Config

/-!
# Options — what the check of a site's options accepts

- `Config.check_accepts_iff`  : all is well when each option has a value of its type
- `Config.settle_of_met`      : then each is set by itself, and none by those before it
- `Config.holds_of_accepted`  : and has a value of its type
- `Config.Settings`           : what accepted options are set to, as a start and a page use them
- `Config.Agree`              : options that are the same up to one
- `Config.load_agree`         : then what they mean is the same up to that one
-/

namespace ScriptDoc
namespace Config

variable {options others : Keyed Value}

theorem check_accepts_iff :
    (check options).rejected = none ↔ ∀ spec ∈ schema, spec.isMet options = true := by
  have hfind : (check options).rejected = none ↔
      schema.find? (fun spec => !spec.isMet options) = none := Option.map_eq_none_iff
  simp [hfind, List.find?_eq_none]

theorem settle_of_met {specs : List OptionSpec} (h : ∀ spec ∈ specs, spec.isMet options = true) :
    settle options specs = specs.map fun spec => (spec.name, spec.settled options) := by
  induction specs with
  | nil =>
      rfl
  | cons spec specs ih =>
      have hspec : spec.isMet options = true := h spec List.mem_cons_self
      have hrest := ih fun other hother => h other (List.mem_cons_of_mem _ hother)
      simp only [settle, hspec, if_true, hrest, List.map_cons]

/-! ## Accepted options -/

theorem valueOf_of_accepted (h : (check options).rejected = none) {spec : OptionSpec}
    (hspec : spec ∈ schema) : valueOf (check options).values spec.name = spec.settled options := by
  have hvalues : (check options).values = schema.map fun spec => (spec.name, spec.settled options) :=
    settle_of_met (check_accepts_iff.1 h)
  simp only [schema, List.mem_cons, List.not_mem_nil, or_false] at hspec
  rcases hspec with rfl | rfl | rfl | rfl | rfl | rfl | rfl
  all_goals simp [valueOf, hvalues, schema, Keyed.get?]

theorem holds_of_accepted (h : (check options).rejected = none) {spec : OptionSpec}
    (hspec : spec ∈ schema) : spec.type.holds (valueOf (check options).values spec.name) = true := by
  rw [valueOf_of_accepted h hspec]
  exact check_accepts_iff.1 h spec hspec

theorem OptionType.exists_text {value : Value} (h : OptionType.text.holds value = true) :
    ∃ s, value = .text s := by
  cases value with
  | text s => exact ⟨s, rfl⟩
  | _ => cases h

theorem OptionType.exists_list {value : Value} (h : OptionType.list.holds value = true) :
    ∃ items, value = .list items := by
  cases value with
  | list items => exact ⟨items, rfl⟩
  | _ => cases h

theorem OptionType.exists_count {value : Value} (h : OptionType.count.holds value = true) :
    ∃ count, Workers.ofValue value = .atMost count := by
  cases value with
  | int n => exact ⟨n, rfl⟩
  | bool b => exact ⟨_, rfl⟩
  | _ => cases h

/-- What accepted options are set to, as a start and a page use them. -/
structure Settings (values : Keyed Value) where
  sourceRoot : String
  sources : List Value
  workers : Int
  metadataKey : String
  sourceRoot_eq : valueOf values "source_root" = .text sourceRoot
  sources_eq : valueOf values "sources" = .list sources
  workers_eq : Workers.ofValue (valueOf values "max_workers") = .atMost workers
  metadataKey_eq : valueOf values "meta_key" = .text metadataKey

theorem settings_of_accepted (h : (check options).rejected = none) :
    Nonempty (Settings (check options).values) := by
  have hholds := fun spec hspec => @holds_of_accepted options h spec hspec
  simp only [schema, List.forall_mem_cons] at hholds
  rcases hholds with ⟨hroot, hsources, -, -, hworkers, hkey, -⟩
  rcases OptionType.exists_text hroot with ⟨sourceRoot, hroot⟩
  rcases OptionType.exists_list hsources with ⟨sources, hsources⟩
  rcases OptionType.exists_count hworkers with ⟨workers, hworkers⟩
  rcases OptionType.exists_text hkey with ⟨metadataKey, hkey⟩
  exact ⟨⟨sourceRoot, sources, workers, metadataKey, hroot, hsources, hworkers, hkey⟩⟩

namespace Settings

variable {values : Keyed Value} (settings : Settings values)

theorem sourceRoot_ofValues : (ofValues values).sourceRoot = some settings.sourceRoot := by
  simp only [ofValues, settings.sourceRoot_eq, sourceRootOf]

/-- A source is named by a text, whatever stands for it in the list. -/
theorem sources_ofValues : (ofValues values).sources = some (settings.sources.map Value.shown) := by
  simp only [ofValues, settings.sources_eq, sourcesOf]

theorem workers_ofValues : (ofValues values).workers = .atMost settings.workers :=
  settings.workers_eq

theorem metadataKey_ofValues :
    (ofValues values).metadataKey = some (.text settings.metadataKey) := by
  simp only [ofValues, settings.metadataKey_eq, MetadataKey.ofValue?]

end Settings

/-! ## Options that differ in one -/

/-- The options have the same value under every name but one. -/
def Agree (apart : String) (options others : Keyed Value) : Prop :=
  ∀ name, name ≠ apart → options.get? name = others.get? name

variable {apart name : String}

theorem Agree.settled (h : Agree apart options others) {spec : OptionSpec}
    (hname : spec.name ≠ apart) : spec.settled options = spec.settled others := by
  simp only [OptionSpec.settled, OptionSpec.given, h spec.name hname]

/-- What is looked up under a name does not depend on what is set under others. -/
theorem get?_map_congr {f g : OptionSpec → Value} {specs : List OptionSpec}
    (h : ∀ spec ∈ specs, spec.name = name → f spec = g spec) :
    Keyed.get? name (specs.map fun spec => (spec.name, f spec)) =
      Keyed.get? name (specs.map fun spec => (spec.name, g spec)) := by
  induction specs with
  | nil =>
      rfl
  | cons spec specs ih =>
      have hrest := ih fun other hother => h other (List.mem_cons_of_mem _ hother)
      by_cases hsame : spec.name = name
      · have hspec : f spec = g spec := h spec List.mem_cons_self hsame
        simp only [List.map_cons, Keyed.get?, if_pos hsame, hspec]
      · simp only [List.map_cons, Keyed.get?, if_neg hsame, hrest]

theorem valueOf_agree (h : Agree apart options others)
    (haccepted : (check options).rejected = none) (hothers : (check others).rejected = none)
    (hname : name ≠ apart) :
    valueOf (check options).values name = valueOf (check others).values name := by
  have hmet := settle_of_met (check_accepts_iff.1 haccepted)
  have hmetOthers := settle_of_met (check_accepts_iff.1 hothers)
  have hget : Keyed.get? name (schema.map fun spec => (spec.name, spec.settled options)) =
      Keyed.get? name (schema.map fun spec => (spec.name, spec.settled others)) :=
    get?_map_congr fun spec _ hsame => h.settled fun heq => hname (hsame.symm.trans heq)
  simp only [check, valueOf, hmet, hmetOthers, hget]

/-- Accepted options that differ in the sources only mean the same, the sources apart. -/
theorem load_agree (h : Agree "sources" options others)
    (haccepted : (check options).rejected = none) (hothers : (check others).rejected = none) :
    ∃ sources, (load others).1 = { (load options).1 with sources := sources } := by
  have hvalue : ∀ name, name ≠ "sources" →
      valueOf (check options).values name = valueOf (check others).values name :=
    fun name hname => valueOf_agree h haccepted hothers hname
  refine ⟨sourcesOf (valueOf (check others).values "sources"), ?_⟩
  simp [load, ofValues, hvalue]

end Config
end ScriptDoc
