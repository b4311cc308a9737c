import Batchwork.Proofs.Json.Records
import Batchwork.Proofs.Step.BuiltSteps

/-!
# What a settings document says

A settings document is decoded to the settings that it gives, whatever the order of its fields, its
white space and the escapes in its strings, and whichever fields it leaves out that are as they are
by default. It is refused if it has a member that is no field, or two members of one name, or makes
chunks empty. Main statement: `Settings.ofText_documents`.
-/

namespace Batchwork

open Json Decoder

namespace Settings

/-! ## Documents -/

def fieldNames : List String := ["name", "chunk_size", "fault_tolerant", "skip_limit", "skip_on"]

/-- The names of the kinds of errors. -/
def kindNames : List (ErrorKind × String) :=
  [(.itemReader, "item_reader"), (.itemProcessor, "item_processor"), (.invalidItem, "invalid_item"),
    (.validation, "validation"), (.itemWriter, "item_writer"), (.transaction, "transaction"),
    (.skipLimitExceeded, "skip_limit_exceeded"), (.step, "step"), (.configuration, "configuration")]

/-- A list of the names of these kinds. -/
inductive KindsText : List UInt8 → List ErrorKind → Prop
  | mk {text : List UInt8} {kinds : List ErrorKind} {names : List String}
      (named : List.Forall₂ (fun kind name => (kind, name) ∈ kindNames) kinds names)
      (written : StringsText text names) : KindsText text kinds

/-- A text of the value that a field of the settings has, under the name of the field. -/
inductive Writes (settings : Settings) : String → List UInt8 → Prop
  | name {text : List UInt8} (written : OptionText text settings.name) :
      Writes settings "name" text
  | chunkSize {text : List UInt8} (written : NaturalText text settings.chunkSize) :
      Writes settings "chunk_size" text
  | faultTolerant {text : List UInt8} (written : BoolText text settings.faultTolerant) :
      Writes settings "fault_tolerant" text
  | skipLimit {text : List UInt8} (written : NaturalText text settings.skipLimit) :
      Writes settings "skip_limit" text
  | skipOn {text : List UInt8} (written : KindsText text settings.skipOn) :
      Writes settings "skip_on" text

/-- The members give these fields of the settings, each of them once. A field that is left out is as
it is by default. -/
structure Given (settings : Settings) (members : List Member) (names : List String) : Prop where
  written : List.Forall₂ (fun member name =>
    Denotes member.key name ∧ settings.Writes name member.element.text) members names
  distinct : names.Nodup
  name : "name" ∉ names → settings.name = none
  chunkSize : "chunk_size" ∉ names → settings.chunkSize = 10
  faultTolerant : "fault_tolerant" ∉ names → settings.faultTolerant = false
  skipLimit : "skip_limit" ∉ names → settings.skipLimit = 0
  skipOn : "skip_on" ∉ names → settings.skipOn = [.invalidItem]

/-- A member that is no field, or two members of one name. -/
inductive Misnamed (members : List Member) : Prop
  | unknown {member : Member} (listed : member ∈ members)
      (other : ∀ name ∈ fieldNames, ¬Denotes member.key name)
  | twice {first second : Member} {name : String} (listed : [first, second].Sublist members)
      (denotes : Denotes first.key name) (denotes' : Denotes second.key name)

/-! ## Fields that are read -/

theorem eq_name_of_mem {kind : ErrorKind} {name : String} (known : (kind, name) ∈ kindNames) :
    name = kind.name := by
  simp only [kindNames, List.mem_cons, Prod.mk.injEq, List.not_mem_nil, or_false] at known
  rcases known with ⟨rfl, rfl⟩ | ⟨rfl, rfl⟩ | ⟨rfl, rfl⟩ | ⟨rfl, rfl⟩ | ⟨rfl, rfl⟩ | ⟨rfl, rfl⟩ |
    ⟨rfl, rfl⟩ | ⟨rfl, rfl⟩ | ⟨rfl, rfl⟩
  all_goals rfl

/-- A kind of errors is known by no other name. -/
theorem KindsText.strings {text : List UInt8} {kinds : List ErrorKind}
    (written : KindsText text kinds) : StringsText text (kinds.map ErrorKind.name) := by
  obtain @⟨names, named, strings⟩ := written
  have same : List.Forall₂ (· = ·) (kinds.map ErrorKind.name) names :=
    List.forall₂_map_left_iff.mpr (named.imp fun _ _ known => (eq_name_of_mem known).symm)
  rw [List.forall₂_eq_eq_eq] at same
  rwa [same]

/-- The draft of which only these fields have been read. -/
def draft (settings : Settings) (names : List String) : Draft where
  name := if "name" ∈ names then some settings.name else none
  chunkSize := if "chunk_size" ∈ names then some settings.chunkSize else none
  faultTolerant := if "fault_tolerant" ∈ names then some settings.faultTolerant else none
  skipLimit := if "skip_limit" ∈ names then some settings.skipLimit else none
  skipOn := if "skip_on" ∈ names then some settings.skipOn else none

/-- A written field is read, and added to the fields that have been read. -/
theorem Writes.read {settings : Settings} {name : String} {text : List UInt8}
    (writes : settings.Writes name text) (chunkBound : settings.chunkSize < Nat.pow 2 64)
    (skipBound : settings.skipLimit < Nat.pow 2 64) :
    ∃ field set, record.fields.find? (·.name == name) = some field ∧ field.name = name ∧
      Accepts (field.read 126) text set ∧ ∀ names, name ∉ names →
        field.isSet (settings.draft names) = false ∧
        set (settings.draft names) = settings.draft (names ++ [name]) := by
  cases writes with
  | name written =>
    refine ⟨_, _, rfl, rfl, (accepts_option written 126).map _, fun names absent => ?_⟩
    simp [draft, absent]
  | chunkSize written =>
    refine ⟨_, _, rfl, rfl, (accepts_natural written chunkBound "usize" 126).map _,
      fun names absent => ?_⟩
    simp [draft, absent]
  | faultTolerant written =>
    refine ⟨_, _, rfl, rfl, (accepts_bool written 126).map _, fun names absent => ?_⟩
    simp [draft, absent]
  | skipLimit written =>
    refine ⟨_, _, rfl, rfl, (accepts_natural written skipBound "usize" 126).map _,
      fun names absent => ?_⟩
    simp [draft, absent]
  | skipOn written =>
    have accepts := accepts_list written.strings fun denotes => accepts_errorKind denotes 125
    refine ⟨_, _, rfl, rfl, accepts.map _, fun names absent => ?_⟩
    simp [draft, absent]

/-- Members that write different fields set them one after another. -/
theorem sets_of_written {settings : Settings} (chunkBound : settings.chunkSize < Nat.pow 2 64)
    (skipBound : settings.skipLimit < Nat.pow 2 64) {members : List Member} {names : List String}
    (written : List.Forall₂ (fun member name =>
      Denotes member.key name ∧ settings.Writes name member.element.text) members names)
    {read : List String} (distinct : (read ++ names).Nodup) :
    record.Sets 126 members (settings.draft read) (settings.draft (read ++ names)) := by
  -- The draft is settled by the names that have been read, to which each member adds its own.
  induction written generalizing read with
  | nil =>
    rw [List.append_nil]
    exact .nil
  | @cons member name members names writes others ih =>
    obtain ⟨denotes, writes⟩ := writes
    obtain ⟨field, set, known, rfl, accepts, reads⟩ := writes.read chunkBound skipBound
    have absent : field.name ∉ read := by
      intro listed
      exact (List.nodup_append.mp distinct).2.2 _ listed _ List.mem_cons_self rfl
    obtain ⟨fresh, same⟩ := reads read absent
    have split : read ++ field.name :: names = read ++ [field.name] ++ names := by simp
    rw [split] at distinct ⊢
    exact .cons denotes known fresh accepts (same ▸ ih distinct)

/-- A field is as it was given, or as it is by default. -/
theorem getD_ite {α : Type} {given : Prop} [Decidable given] {value default : α}
    (left : ¬given → value = default) :
    (if given then some value else none).getD default = value := by
  by_cases there : given
  · rw [if_pos there]
    rfl
  · rw [if_neg there, left there]
    rfl

theorem Given.draft_settings {settings : Settings} {members : List Member} {names : List String}
    (given : settings.Given members names) : (settings.draft names).settings = settings := by
  simp only [Draft.settings, draft, getD_ite given.name, getD_ite given.chunkSize,
    getD_ite given.faultTolerant, getD_ite given.skipLimit, getD_ite given.skipOn]

theorem decode_of_given {settings : Settings} {document : ObjectDocument} {names : List String}
    (given : settings.Given document.members names) (chunkBound : settings.chunkSize < Nat.pow 2 64)
    (skipBound : settings.skipLimit < Nat.pow 2 64) :
    decode record.shape document.bytes = .ok settings := by
  have sets : record.Sets 126 document.members (settings.draft []) (settings.draft names) :=
    sets_of_written chunkBound skipBound given.written given.distinct
  have blank : settings.draft [] = record.blank := by simp [draft, record]
  rw [blank] at sets
  refine Record.decode_of_sets sets ?_
  exact congrArg Except.ok given.draft_settings

/-! ## Fields that are refused -/

theorem record_lawful : record.Lawful where
  strict := rfl
  sound := by
    intro field known depth
    simp only [record, fields, List.mem_cons, List.not_mem_nil, or_false] at known
    rcases known with rfl | rfl | rfl | rfl | rfl
    · exact readsValues_map _ (readsValues_option (readsValues_text _ _))
    · exact readsValues_map _ (readsValues_map _ (readsValues_numeric _ _ _))
    · exact readsValues_map _ (readsValues_bool _)
    · exact readsValues_map _ (readsValues_map _ (readsValues_numeric _ _ _))
    · exact readsValues_map _ (readsValues_list (fun depth => readsValues_name _ _ depth) _)
  tracks := by
    intro field known depth bytes set rest reads other known' draft
    simp only [record, fields, List.mem_cons, List.not_mem_nil, or_false] at known known'
    rcases known with rfl | rfl | rfl | rfl | rfl
    all_goals
      obtain ⟨value, rfl, -⟩ := reads.map
      rcases known' with rfl | rfl | rfl | rfl | rfl <;> simp

theorem exists_name {keys : List (List UInt8)} {names : List String}
    (denote : List.Forall₂ Denotes keys names) {key : List UInt8} (listed : key ∈ keys) :
    ∃ name ∈ names, Denotes key name := by
  induction denote with
  | nil => cases listed
  | cons denotes others ih =>
    rcases List.mem_cons.mp listed with rfl | listed
    · exact ⟨_, List.mem_cons_self, denotes⟩
    · obtain ⟨name, later, denotes⟩ := ih listed
      exact ⟨name, List.mem_cons_of_mem _ later, denotes⟩

/-- Keys that denote different names do not denote one name. -/
theorem keys_pairwise {keys : List (List UInt8)} {names : List String}
    (denote : List.Forall₂ Denotes keys names) (distinct : names.Nodup) :
    keys.Pairwise fun key key' => ∀ name, Denotes key name → ¬Denotes key' name := by
  induction denote with
  | nil => exact .nil
  | @cons key name keys names denotes others ih =>
    obtain ⟨absent, distinct⟩ := List.nodup_cons.mp distinct
    refine .cons (fun key' listed given first second => ?_) (ih distinct)
    obtain ⟨name', listed', denotes'⟩ := exists_name others listed
    obtain rfl := first.unique denotes
    obtain rfl := second.unique denotes'
    exact absent listed'

theorem Misnamed.not_names {members : List Member} (misnamed : Misnamed members)
    {names : List String} : ¬record.Names record.blank members names := by
  intro listed
  cases misnamed with
  | @unknown member here other =>
    have key : member.key ∈ members.map Member.key := List.mem_map_of_mem here
    obtain ⟨name, known, denotes⟩ := exists_name listed.denote key
    obtain ⟨field, declared, rfl, -⟩ := listed.free name known
    apply other _ _ denotes
    simp only [record, fields, List.mem_cons, List.not_mem_nil, or_false] at declared
    rcases declared with rfl | rfl | rfl | rfl | rfl <;> decide
  | @twice first second name both denotes denotes' =>
    have keys : [first.key, second.key].Sublist (members.map Member.key) := both.map Member.key
    have apart := (keys_pairwise listed.denote listed.distinct).sublist keys
    simp only [List.pairwise_cons, List.mem_singleton, forall_eq] at apart
    exact apart.1 name denotes denotes'

/-! ## Documents that are read -/

/-- Settings that are decoded are returned if they are valid. All errors say that the configuration
is bad. -/
theorem ofText_total (text : String) :
    (∃ settings, decodeText record.shape text = .ok settings ∧ settings.validate = .ok () ∧
      ofText text = .ok settings) ∨
    ∃ reason, ofText text = .error (.configuration reason) := by
  unfold ofText
  cases decoded : decodeText record.shape text with
  | error fault => exact .inr ⟨fault.message, rfl⟩
  | ok settings =>
    by_cases empty : settings.chunkSize = 0
    · right
      simp only [validate, empty, if_true]
      exact ⟨_, rfl⟩
    · left
      have valid : settings.validate = .ok () := if_neg empty
      refine ⟨settings, rfl, valid, ?_⟩
      simp only [valid]
      rfl

theorem validate_eq_ok {settings : Settings} :
    settings.validate = .ok () ↔ 1 ≤ settings.chunkSize := by
  unfold validate
  split
  next empty => simp [empty]
  next some => simpa using Nat.one_le_iff_ne_zero.mpr some

/-- Valid settings leave a builder without further requirements than its parts. -/
theorem build_withSettings {σ ε ι ω : Type} (builder : StepBuilder σ ε ι ω) {settings : Settings}
    (valid : settings.validate = .ok ()) (reader : builder.reader.isSome)
    (processor : builder.processor.isSome) (writer : builder.writer.isSome) (itemSize : Nat) :
    ∃ step, (builder.withSettings settings).build itemSize = .ok step := by
  obtain ⟨reader, read⟩ := Option.isSome_iff_exists.mp reader
  obtain ⟨processor, process⟩ := Option.isSome_iff_exists.mp processor
  obtain ⟨writer, write⟩ := Option.isSome_iff_exists.mp writer
  exact ⟨_, StepBuilder.build_eq_ok.mpr
    ⟨validate_eq_ok.mp valid, reader, processor, writer, read, process, write, rfl⟩⟩

/-- A text that gives settings is decoded to them, and refused if they make chunks empty. A text
with a member that is no field, or with two members of one name, is refused wherever these stand and
whatever their values are. Settings that are returned are valid, so that no builder fails for them.
-/
theorem ofText_documents :
    (∀ {document : ObjectDocument} {settings : Settings} {names : List String} {text : String},
      text.toUTF8.toList = document.bytes → settings.Given document.members names →
      settings.chunkSize < Nat.pow 2 64 → settings.skipLimit < Nat.pow 2 64 →
        (1 ≤ settings.chunkSize → ofText text = .ok settings) ∧
        (settings.chunkSize = 0 → ∃ reason, ofText text = .error (.configuration reason))) ∧
    (∀ {document : ObjectDocument} {text : String}, text.toUTF8.toList = document.bytes →
      Misnamed document.members → ∃ reason, ofText text = .error (.configuration reason)) ∧
    ∀ {text : String} {settings : Settings}, ofText text = .ok settings →
      settings.validate = .ok () ∧
      ∀ {σ ε ι ω : Type} (builder : StepBuilder σ ε ι ω), builder.reader.isSome →
        builder.processor.isSome → builder.writer.isSome → ∀ itemSize,
          ∃ step, (builder.withSettings settings).build itemSize = .ok step := by
  refine ⟨?_, ?_, ?_⟩
  · intro document settings names text written given chunkBound skipBound
    have decoded : decodeText record.shape text = .ok settings := by
      rw [decodeText, written]
      exact decode_of_given given chunkBound skipBound
    rcases ofText_total text with ⟨found, decoded', valid, returned⟩ | refused
    · obtain rfl : settings = found := Except.ok.inj (decoded.symm.trans decoded')
      have some := validate_eq_ok.mp valid
      exact ⟨fun _ => returned, fun empty => absurd empty (Nat.ne_of_gt some)⟩
    · refine ⟨fun some => ?_, fun _ => refused⟩
      -- Settings that are decoded and valid are not refused.
      have valid := validate_eq_ok.mpr some
      simp only [ofText, decoded, valid]
      rfl
  · intro document text written misnamed
    rcases ofText_total text with ⟨found, decoded, -, -⟩ | refused
    · rw [decodeText, written] at decoded
      obtain ⟨names, listed⟩ := Record.names_of_decode record_lawful decoded
      exact absurd listed misnamed.not_names
    · exact refused
  · intro text settings returned
    rcases ofText_total text with ⟨found, -, valid, returned'⟩ | ⟨reason, refused⟩
    · obtain rfl : settings = found := Except.ok.inj (returned.symm.trans returned')
      exact ⟨valid, fun builder => build_withSettings builder valid⟩
    · cases returned.symm.trans refused

/-! ## Three documents -/

/-- A name between quotes. -/
def quoted (name : String) : List UInt8 :=
  34 :: (name.toList.flatMap String.utf8EncodeChar ++ [34])

theorem denotes_quoted (name : String) (plain : ∀ c ∈ name.toList, isPlain c = true) :
    Denotes (quoted name) name := by
  have denotes := Denotes.mk (Spells.plainly name.toList plain)
  rwa [String.ofList_toList] at denotes

theorem denotes_name : Denotes (quoted "name") "name" :=
  denotes_quoted "name" (List.all_eq_true.mp rfl)

theorem denotes_chunkSize : Denotes (quoted "chunk_size") "chunk_size" :=
  denotes_quoted "chunk_size" (List.all_eq_true.mp rfl)

theorem denotes_validation : Denotes (quoted "validation") "validation" :=
  denotes_quoted "validation" (List.all_eq_true.mp rfl)

/-- A name whose underscore is written as an escape. -/
def escapedSkipOn : List UInt8 :=
  34 :: ("skip".toList.flatMap String.utf8EncodeChar ++
    92 :: 117 :: ([48, 48, 53, 102] ++ "on".toList.flatMap String.utf8EncodeChar) ++ [34])

theorem denotes_escapedSkipOn : Denotes escapedSkipOn "skip_on" := by
  have underscore : CodeUnit [48, 48, 53, 102] '_'.toNat := ⟨rfl, List.all_eq_true.mp rfl, rfl⟩
  have later := Spells.codePoint underscore (Spells.plainly "on".toList (List.all_eq_true.mp rfl))
  exact .mk ((Spells.plainly "skip".toList (List.all_eq_true.mp rfl)).append later)

theorem blank_nothing : Blank [] := List.forall_mem_nil _

theorem blank_space : Blank [32] := List.forall_mem_singleton.mpr rfl

/-- A kind of errors, as an element of a list. -/
def validationElement : Element isBlank where
  before := []
  text := quoted "validation"
  after := []
  leading := blank_nothing
  value := .string denotes_validation.text
  trailing := blank_nothing

/-- A member with a blank in front of its name and of its value. -/
def spaced {key text : List UInt8} (string : StringText key) (value : Derives .value text) :
    Member where
  before := [32]
  key := key
  between := []
  element :=
    { before := [32], text := text, after := [], value := value
      leading := blank_space, trailing := blank_nothing }
  leading := blank_space
  string := string
  trailing := blank_nothing

def validationMember : Member :=
  spaced denotes_escapedSkipOn.text (.array (.lastElement validationElement.derives))

def namelessMember : Member := spaced denotes_name.text .null

def emptyChunkMember : Member :=
  spaced denotes_chunkSize.text
    (.number (.mk (.inl rfl) .zero .absent .absent))

def compact (members : List Member) : ObjectDocument where
  lead := []
  opening := []
  members := members
  trail := []
  leading := blank_nothing
  inside := blank_nothing
  trailing := blank_nothing

/-- The other kind of errors is skipped, and nothing else is said. -/
def validating : Settings := { skipOn := [.validation] }

theorem validating_given :
    validating.Given [validationMember, namelessMember] ["skip_on", "name"] where
  written := by
    have denote : List.Forall₂ (fun element value => Denotes element.text value)
        [validationElement] ["validation"] := .cons denotes_validation .nil
    have named : List.Forall₂ (fun kind name => (kind, name) ∈ kindNames) [.validation]
        ["validation"] := .cons (by simp [kindNames]) .nil
    have kinds : KindsText validationMember.element.text [.validation] :=
      .mk named (.mk blank_nothing denote)
    exact .cons ⟨denotes_escapedSkipOn, .skipOn kinds⟩
      (.cons ⟨denotes_name, .name .null⟩ .nil)
  distinct := by simp
  name := fun _ => rfl
  chunkSize := fun _ => rfl
  faultTolerant := fun _ => rfl
  skipLimit := fun _ => rfl
  skipOn := fun left => absurd List.mem_cons_self left

def emptyChunks : Settings := { chunkSize := 0 }

theorem emptyChunks_given : emptyChunks.Given [emptyChunkMember] ["chunk_size"] where
  written := .cons ⟨denotes_chunkSize, .chunkSize ⟨.zero, rfl⟩⟩ .nil
  distinct := by simp
  name := fun _ => rfl
  chunkSize := fun left => absurd List.mem_cons_self left
  faultTolerant := fun _ => rfl
  skipLimit := fun _ => rfl
  skipOn := fun _ => rfl

/-- A step that has all its parts but no settings. -/
def copying : StepBuilder (ItemQueue Nat × ItemStore Nat) ComponentLog Nat Nat :=
  ((StepBuilder.passThroughChunk "copy" 1).withReader
    ((ItemQueue.asReader Nat ComponentLog).within (.first _ _) id)).withWriter
      (ItemStore.asWriter.within (.second _ _) id)

def validatingText : String := "\x7b \"skip\\u005fon\": [\"validation\"], \"name\": null\x7d"

def emptyChunksText : String := "\x7b \"chunk_size\": 0\x7d"

/-- The name is given once more, in front. -/
def repeatingText : String :=
  "\x7b \"name\": null, \"skip\\u005fon\": [\"validation\"], \"name\": null\x7d"

theorem ofText_validating :
    ofText validatingText = .ok validating ∧
    (∃ reason, ofText emptyChunksText = .error (.configuration reason)) ∧
    (∃ reason, ofText repeatingText = .error (.configuration reason)) ∧
    validating.validate = .ok () ∧ ∃ step, (copying.withSettings validating).build 8 = .ok step := by
  obtain ⟨given, misnamed, returned⟩ := ofText_documents
  have validates : validatingText.toUTF8.toList =
      (compact [validationMember, namelessMember]).bytes := by
    rw [toList_byteArray]
    rfl
  have empties : emptyChunksText.toUTF8.toList = (compact [emptyChunkMember]).bytes := by
    rw [toList_byteArray]
    rfl
  have repeats : repeatingText.toUTF8.toList =
      (compact [namelessMember, validationMember, namelessMember]).bytes := by
    rw [toList_byteArray]
    rfl
  have twice : Misnamed [namelessMember, validationMember, namelessMember] :=
    .twice (.cons_cons _ (.cons _ (.refl _))) denotes_name denotes_name
  have read := (given validates validating_given (by decide) (by decide)).1 (by decide)
  have empty := (given empties emptyChunks_given (by decide) (by decide)).2 rfl
  obtain ⟨valid, builds⟩ := returned read
  exact ⟨read, empty, misnamed repeats twice, valid, builds copying rfl rfl rfl 8⟩

end Settings

end Batchwork
