import Batchwork.Json.Record
import Batchwork.Proofs.Json.Shapes

/-!
# Records as objects

An object whose members set the fields of a record is decoded to that record, however it is written.
The other way round, an object that is decoded has members with the names of fields only, and no two
members with the same name, whatever their values are. Main statements: `Record.decode_of_sets`,
`Record.names_of_decode`.
-/

namespace Batchwork.Json

namespace Decoder

variable {δ ρ : Type} {record : Record δ ρ} {depth : Nat} {gap between rest later : List UInt8}

/-! ## Objects that are decoded -/

theorem takes_noMember (first : Bool) (blank : Blank gap) :
    Takes (memberName? first) (gap ++ 125 :: later) none (125 :: later) :=
  Takes.bind ((takes_token blank rfl).bind takes_pure) takes_pure

theorem takes_hasMember_first (blank : Blank gap) :
    Takes (hasMember true) (gap ++ 34 :: later) true (34 :: later) :=
  (takes_token blank rfl).bind takes_pure

theorem takes_hasMember_later (blank : Blank gap) (blank' : Blank between) :
    Takes (hasMember false) (gap ++ 44 :: (between ++ 34 :: later)) true (34 :: later) :=
  (takes_token blank rfl).bind (takes_advance.bind ((takes_token blank' rfl).bind takes_pure))

end Decoder

open Decoder

namespace Record

variable {δ ρ : Type} {record : Record δ ρ} {depth : Nat}

/-- The members set one field after another, from one draft to another. No field is set twice. -/
inductive Sets (record : Record δ ρ) (depth : Nat) : List Member → δ → δ → Prop
  | nil {draft : δ} : Sets record depth [] draft draft
  | cons {member : Member} {later : List Member} {field : Field δ} {set : δ → δ} {draft last : δ}
      (denotes : Denotes member.key field.name)
      (known : record.fields.find? (·.name == field.name) = some field)
      (fresh : field.isSet draft = false)
      (accepts : Accepts (field.read depth) member.element.text set)
      (others : Sets record depth later (set draft) last) :
      Sets record depth (member :: later) draft last

variable {gap rest : List UInt8} {draft last : δ}

/-- A member and those behind it, once it is known that there is one. -/
theorem takes_member {member : Member} {field : Field δ} {set : δ → δ} {bytes final : List UInt8}
    {fuel : Nat} {first : Bool} (denotes : Denotes member.key field.name)
    (known : record.fields.find? (·.name == field.name) = some field)
    (fresh : field.isSet draft = false)
    (accepts : Accepts (field.read depth) member.element.text set) (apart : Apart bytes)
    (asked : ∀ later, Takes (hasMember first) (gap ++ 34 :: later) true (34 :: later))
    (others : Takes (record.fromMembers depth fuel false (set draft))
      (member.element.after ++ bytes) last final) :
    Takes (record.fromMembers depth (fuel + 1) first draft)
      (gap ++ (member.key ++ (member.between ++ (member.assigned ++ bytes)))) last final := by
  obtain ⟨later, front, name⟩ := takes_stringBody denotes
    (member.between ++ (member.assigned ++ bytes))
  have value := accepts member.element.leading (apart.behind member.element.trailing)
  have assigned : member.assigned ++ bytes = 58 :: (member.element.before ++
      (member.element.text ++ (member.element.after ++ bytes))) := by
    simp [Member.assigned, Element.bytes, Element.content]
  have named : Takes (memberName? first) (gap ++ 34 :: later) (some field.name)
      (member.between ++ (member.assigned ++ bytes)) :=
    Takes.bind (asked later) (takes_advance.bind (name.bind takes_pure))
  rw [front]
  refine named.bind ?_
  dsimp only
  rw [known]
  dsimp only
  rw [fresh, assigned]
  exact (takes_colon member.trailing).bind (value.bind others)

theorem takes_following {members : List Member} (sets : record.Sets depth members draft last)
    {fuel : Nat} (enough : members.length < fuel) (blank : Blank gap) :
    Takes (record.fromMembers depth fuel false draft)
      (gap ++ (following (members.map Member.bytes) ++ 125 :: rest)) last (125 :: rest) := by
  -- One round for each member, and one that finds the brace.
  induction sets generalizing gap fuel with
  | nil =>
    obtain ⟨fuel, rfl⟩ := Nat.exists_eq_add_one_of_ne_zero (Nat.ne_zero_of_lt enough)
    exact (takes_noMember false blank).bind takes_pure
  | @cons member members field set draft last denotes known fresh accepts others ih =>
    obtain ⟨fuel, rfl⟩ := Nat.exists_eq_add_one_of_ne_zero (Nat.ne_zero_of_lt enough)
    have split : gap ++ (following ((member :: members).map Member.bytes) ++ 125 :: rest) =
        gap ++ 44 :: member.before ++ (member.key ++ (member.between ++ (member.assigned ++
          (following (members.map Member.bytes) ++ 125 :: rest)))) := by
      simp [Member.bytes]
    rw [split]
    refine takes_member denotes known fresh accepts (apart_following (.inr rfl) _ rest)
      (fun later => ?_) (ih (Nat.lt_of_succ_lt_succ enough) member.element.trailing)
    simpa using takes_hasMember_later blank member.leading

/-- All members of an object, with fuel for each of its bytes. -/
theorem takes_members {opening : List UInt8} {members : List Member}
    (sets : record.Sets depth members draft last) (blank : Blank opening) {fuel : Nat}
    (enough : (opening ++ (Member.listed members ++ 125 :: rest)).length < fuel) :
    Takes (record.fromMembers depth fuel true draft)
      (opening ++ (Member.listed members ++ 125 :: rest)) last (125 :: rest) := by
  obtain ⟨fuel, rfl⟩ := Nat.exists_eq_add_one_of_ne_zero (Nat.ne_zero_of_lt enough)
  cases sets with
  | nil => exact (takes_noMember true blank).bind takes_pure
  | @cons member members field set _ _ denotes known fresh accepts others =>
    have split : opening ++ (Member.listed (member :: members) ++ 125 :: rest) =
        opening ++ member.before ++ (member.key ++ (member.between ++ (member.assigned ++
          (following (members.map Member.bytes) ++ 125 :: rest)))) := by
      simp [Member.listed_cons, Member.bytes]
    have room : members.length < fuel := by
      have commas := length_le_following (members.map Member.bytes)
      simp only [Member.listed_cons, List.length_append, List.length_cons,
        List.length_map] at enough commas
      omega
    rw [split]
    exact takes_member denotes known fresh accepts (apart_following (.inr rfl) _ rest)
      (fun later => takes_hasMember_first (blank.append member.leading))
      (takes_following others room member.element.trailing)

/-- An object whose members set the fields of a record is decoded to that record. -/
theorem decode_of_sets {document : ObjectDocument} {value : ρ}
    (sets : record.Sets 126 document.members record.blank last)
    (finishes : record.finish last = .ok value) :
    decode record.shape document.bytes = .ok value := by
  refine decode_of_takes ?_ document.trailing
  refine (takes_valueStart document.leading rfl).bind (Takes.placed (Takes.enter
    (Takes.closedBy ?_ (takes_endObject (List.forall_mem_nil _)))))
  refine .of_get fun cursor stands => ?_
  refine (takes_members sets document.inside (Nat.lt_succ_of_le stands.bound)).bind ?_
  rw [complete, finishes]
  exact takes_pure

/-! ## What is decoded of an object -/

/-- A record without members of other names, whose fields are read from values and know whether
they have been set. -/
structure Lawful (record : Record δ ρ) : Prop where
  strict : record.lenient = false
  sound : ∀ field ∈ record.fields, ∀ depth, ReadsValues (field.read depth)
  tracks : ∀ field ∈ record.fields, ∀ {depth bytes set rest},
    Reads (field.read depth) bytes set rest → ∀ other ∈ record.fields, ∀ draft,
      other.isSet (set draft) = (other.name == field.name || other.isSet draft)

/-- The members have these names, each of which is that of a field that the draft has not set. -/
structure Names (record : Record δ ρ) (draft : δ) (members : List Member) (names : List String) :
    Prop where
  denote : List.Forall₂ Denotes (members.map Member.key) names
  distinct : names.Nodup
  free : ∀ name ∈ names, ∃ field ∈ record.fields, field.name = name ∧ field.isSet draft = false

theorem Names.nil : Names record draft [] [] :=
  ⟨.nil, List.nodup_nil, List.forall_mem_nil _⟩

theorem Names.cons {member : Member} {members : List Member} {names : List String}
    {field : Field δ} {set : δ → δ} (denotes : Denotes member.key field.name)
    (known : field ∈ record.fields) (fresh : field.isSet draft = false)
    (tracks : ∀ other ∈ record.fields,
      other.isSet (set draft) = (other.name == field.name || other.isSet draft))
    (others : Names record (set draft) members names) :
    Names record draft (member :: members) (field.name :: names) := by
  have later : ∀ name ∈ names, name ≠ field.name ∧
      ∃ other ∈ record.fields, other.name = name ∧ other.isSet draft = false := by
    intro name listed
    obtain ⟨other, known, rfl, unset⟩ := others.free name listed
    rw [tracks other known, Bool.or_eq_false_iff] at unset
    exact ⟨ne_of_beq_false unset.1, other, known, rfl, unset.2⟩
  refine ⟨.cons denotes others.denote, ?_, ?_⟩
  · exact List.nodup_cons.mpr ⟨fun listed => (later _ listed).1 rfl, others.distinct⟩
  · intro name listed
    rcases List.mem_cons.mp listed with rfl | listed
    · exact ⟨field, known, rfl, fresh⟩
    · exact (later name listed).2

variable {bytes : List UInt8}

/-- One round finds the end of the members, or reads one of them up to the end of its value. Which
blanks stand around it is settled by the rounds before and behind. -/
theorem reads_round (lawful : record.Lawful) {fuel : Nat} {first : Bool}
    (reads : Reads (record.fromMembers depth (fuel + 1) first draft) bytes last rest) :
    Reads (hasMember first) bytes false rest ∨
      ∃ (field : Field δ) (set : δ → δ) (quote behind : List UInt8),
        Reads (hasMember first) bytes true quote ∧
        field ∈ record.fields ∧ field.isSet draft = false ∧
        (∀ other ∈ record.fields,
          other.isSet (set draft) = (other.name == field.name || other.isSet draft)) ∧
        Reads (record.fromMembers depth fuel false (set draft)) behind last rest ∧
        ∀ {leading trailing more : List UInt8}, Blank leading → Blank trailing →
          behind = trailing ++ more → ∃ member : Member, Denotes member.key field.name ∧
            leading ++ quote = member.bytes ++ more := by
  obtain ⟨name?, middle, front, reads⟩ := reads.bind
  obtain ⟨rfl, asked⟩ | ⟨name, quote, rfl, asked, named⟩ := front.memberName?
  · obtain ⟨-, rfl⟩ := reads_pure.mp reads
    exact .inl asked
  · right
    obtain ⟨letters, rfl⟩ : ∃ letters, quote = 34 :: letters := by
      cases first with
      | true =>
        obtain ⟨gap, letters, -, -, quoted⟩ := asked.hasMember_first
        exact ⟨letters, quoted⟩
      | false =>
        obtain ⟨gap, between, letters, -, -, -, quoted⟩ := asked.hasMember_later
        exact ⟨letters, quoted⟩
    obtain ⟨key, whole, denotes⟩ := named.denotes
    dsimp only at reads
    split at reads
    -- A name that is known is that of a field which has not been set: a second one is an error.
    next field found =>
      obtain rfl : field.name = name := by simpa using List.find?_some found
      have known := List.mem_of_find?_eq_some found
      split at reads
      · exact absurd reads not_reads_throw
      next fresh =>
        obtain ⟨_, inside, marked, reads⟩ := reads.bind
        obtain ⟨set, behind, read, others⟩ := reads.bind
        obtain ⟨between, blank, split⟩ := marked.colon
        obtain ⟨before, text, blank', split', derives⟩ := lawful.sound field known _ read
        refine ⟨field, set, 34 :: letters, behind, asked, known, by simpa using fresh,
          fun other listed => lawful.tracks field known read other listed draft, others, ?_⟩
        intro leading trailing more blanks blanks' left
        refine ⟨⟨leading, key, between, ⟨before, text, trailing, blank', derives, blanks'⟩, blanks,
          denotes.text, blank⟩, denotes, ?_⟩
        have whole : 34 :: letters = key ++ (between ++ 58 :: (before ++ (text ++ behind))) := by
          rw [← split', ← split]
          exact whole
        rw [whole, left]
        simp [Member.bytes, Member.assigned, Element.bytes, Element.content]
    next =>
      rw [lawful.strict] at reads
      exact absurd reads not_reads_throw

theorem reads_following (lawful : record.Lawful) {fuel : Nat}
    (reads : Reads (record.fromMembers depth fuel false draft) bytes last rest) :
    ∃ gap members names later, Blank gap ∧
      bytes = gap ++ (following (members.map Member.bytes) ++ rest) ∧ rest = 125 :: later ∧
      record.Names draft members names := by
  induction fuel generalizing bytes draft with
  | zero => exact absurd reads not_reads_fail
  | succ fuel ih =>
    obtain asked | ⟨field, set, quote, behind, asked, known, fresh, tracks, others, whole⟩ :=
      reads_round lawful reads
    · obtain ⟨gap, later, blank, split, closing⟩ := asked.hasMember_none
      exact ⟨gap, [], [], later, blank, split, closing, .nil⟩
    · obtain ⟨gap, between, -, blank, blank', split, -⟩ := asked.hasMember_later
      -- Of the blanks behind this member it is the next round that tells.
      obtain ⟨trailing, members, names, later, blanks, left, closing, listed⟩ := ih others
      obtain ⟨member, denotes, same⟩ := whole blank' blanks left
      refine ⟨gap, member :: members, field.name :: names, later, blank, ?_, closing,
        .cons denotes known fresh tracks listed⟩
      rw [split, same]
      simp

theorem reads_members (lawful : record.Lawful) {fuel : Nat}
    (reads : Reads (record.fromMembers depth fuel true draft) bytes last rest) :
    ∃ opening members names later, Blank opening ∧
      bytes = opening ++ (Member.listed members ++ rest) ∧ rest = 125 :: later ∧
      record.Names draft members names := by
  cases fuel with
  | zero => exact absurd reads not_reads_fail
  | succ fuel =>
    obtain asked | ⟨field, set, quote, behind, asked, known, fresh, tracks, others, whole⟩ :=
      reads_round lawful reads
    · obtain ⟨gap, later, blank, split, closing⟩ := asked.hasMember_none
      exact ⟨gap, [], [], later, blank, split, closing, .nil⟩
    · obtain ⟨gap, -, blank, split, -⟩ := asked.hasMember_first
      obtain ⟨trailing, members, names, later, blanks, left, closing, listed⟩ :=
        reads_following lawful others
      obtain ⟨member, denotes, same⟩ := whole blank blanks left
      refine ⟨[], member :: members, field.name :: names, later, List.forall_mem_nil _, ?_, closing,
        .cons denotes known fresh tracks listed⟩
      rw [split, same, Member.listed_cons]
      simp

/-- An object that is decoded to a record has members of different names, each that of a field. -/
theorem names_of_decode (lawful : record.Lawful) {document : ObjectDocument} {value : ρ}
    (decoded : decode record.shape document.bytes = .ok value) :
    ∃ names, record.Names record.blank document.members names := by
  obtain ⟨after, reads, -⟩ := reads_of_decode decoded
  obtain ⟨gap, byte, later, blank, split, reads⟩ := reads.of_valueStart
  split at reads
  · -- A record may also be read from a list, but an object is none.
    cases (Blank.unique document.leading blank rfl rfl split).2.1
  · obtain ⟨-, -, rfl⟩ := Blank.unique document.leading blank rfl rfl split
    obtain ⟨inner, reads⟩ := reads.placed.enter
    obtain ⟨middle, front, -⟩ := reads.closedBy
    obtain ⟨cursor, -, front⟩ := front.of_get
    obtain ⟨last, behind, front, -⟩ := front.bind
    obtain ⟨opening, members, names, left, blank', inside, rfl, listed⟩ :=
      reads_members lawful front
    have keys := Member.keys_of_listed document.inside blank' inside
    exact ⟨names, keys ▸ listed.denote, listed.distinct, listed.free⟩
  · exact absurd reads not_reads_mismatch

end Record

end Batchwork.Json
