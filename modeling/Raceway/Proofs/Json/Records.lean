import Raceway.Json.Record
import Raceway.Proofs.Json.Sequences
/-!
# Records read back

The fields of a record are written in order, each behind its name.  They are read one by one, and
every field changes the record as its value says; when all have been read none is missing.
-/

namespace Raceway.Json

/-! ## Names -/

/-- Whether nothing in a text has to be escaped. -/
def Plain (s : List Char) : Prop :=
  ∀ c ∈ s, c ≠ '"' ∧ c ≠ '\\' ∧ ¬c < ' '

instance (s : List Char) : Decidable (Plain s) :=
  inferInstanceAs (Decidable (∀ c ∈ s, _))

theorem readText_plain {name : List Char} (h : Plain name) (rest : List Char) :
    Yields true name rest (readText (name ++ '"' :: rest)) := by
  induction name with
  | nil =>
      rw [List.nil_append, readText]
      exact yields_ok
  | cons c name ih =>
      rw [Plain, List.forall_mem_cons] at h
      obtain ⟨⟨hquote, hescape, hcontrol⟩, hname⟩ := h
      rw [List.cons_append, readText, if_neg hcontrol]
      · exact (ih hname).map fun _ => ⟨rfl, rfl⟩
      · exact hquote
      · exact hescape

/-- A name is found behind the comma in front of it, if there is one. -/
theorem yields_nextKey (first : Bool) {name : List Char} (h : Plain name) (rest : List Char) :
    Yields true (some name) rest
      (nextKey first (separator first ++ '"' :: (name ++ '"' :: rest))) := by
  cases first with
  | true => exact (readText_plain h rest).map fun _ => ⟨rfl, rfl⟩
  | false => exact (readText_plain h rest).map fun _ => ⟨rfl, rfl⟩

theorem nextKey_brace (first : Bool) (rest : List Char) :
    Yields true none rest (nextKey first ('\x7d' :: rest)) :=
  ⟨rfl, rfl, rfl⟩

/-! ## Fields -/

variable {ρ α : Type}

/-- A field as it is written: its text, and the change that reading it makes to a record, if all
is well. -/
structure Entry (ρ : Type) where
  field : RecordField ρ
  text : List Char
  good : Bool
  change : ρ → ρ

namespace Entry

/-- The entry of a field that holds a value. -/
def ofValue (name : String) (required : Bool) (read : Reader α) (text : List Char) (good : Bool)
    (a : α) (set : α → ρ → ρ) : Entry ρ where
  field := ⟨name, required, fun s => do return (← read s).map set⟩
  text := text
  good := good
  change := set a

def name (e : Entry ρ) : String :=
  e.field.name

/-- The name and the value of an entry in a text. -/
def item (e : Entry ρ) : List Char :=
  '"' :: (e.name.toList ++ '"' :: ':' :: e.text)

/-- Whether an entry is read back behind its name. -/
structure Sound (e : Entry ρ) : Prop where
  plain : Plain e.name.toList
  recovers : Recovers e.field.read e.text e.good e.change

theorem sound_ofValue {name : String} {required : Bool} {read : Reader α} {text : List Char}
    {good : Bool} {a : α} {set : α → ρ → ρ} (hname : Plain name.toList)
    (h : Recovers read text good a) : (ofValue name required read text good a set).Sound :=
  ⟨hname, h.map set⟩

end Entry

theorem readColon_colon (rest : List Char) : Yields true () rest (readColon (':' :: rest)) :=
  ⟨rfl, rfl, rfl⟩

variable {fields : List (RecordField ρ)}

theorem yields_readField {e : Entry ρ} {draft : Draft ρ} {rest : List Char} (he : e.Sound)
    (hfind : (fields.find? fun field => field.name.toList == e.name.toList) = some e.field)
    (hseen : e.name ∉ draft.seen) (hrest : Delimited rest) :
    Yields e.good ⟨e.change draft.record, e.name :: draft.seen⟩ rest
      (readField fields draft e.name.toList (':' :: (e.text ++ rest))) := by
  unfold readField
  rw [hfind]
  change Yields _ _ _ (if draft.seen.contains e.name then _ else _)
  rw [if_neg (by simpa using hseen)]
  exact (readColon_colon (e.text ++ rest)).bind fun _ =>
    (he.recovers rest hrest).map fun _ => ⟨rfl, rfl⟩

theorem yields_readFields {entries : List (Entry ρ)} (hsound : ∀ e ∈ entries, e.Sound)
    (hfind : ∀ e ∈ entries,
      (fields.find? fun field => field.name.toList == e.name.toList) = some e.field)
    (hnodup : (entries.map Entry.name).Nodup) (draft : Draft ρ)
    (hseen : ∀ e ∈ entries, e.name ∉ draft.seen) (first : Bool) (rest : List Char) :
    Yields (entries.all Entry.good)
      ⟨entries.foldl (fun record e => e.change record) draft.record,
        (entries.map Entry.name).reverse ++ draft.seen⟩ rest
      (readFields fields first draft
        (itemsText first (entries.map Entry.item) ++ '\x7d' :: rest)) := by
  -- The draft keeps the names that have been read, so that no entry to come is a second one.
  induction entries generalizing draft first with
  | nil =>
      rw [List.map_nil, itemsText, List.nil_append, readFields]
      exact (nextKey_brace first rest).bind fun _ => ⟨rfl, rfl, rfl⟩
  | cons e entries ih =>
      rw [List.forall_mem_cons] at hsound hfind hseen
      rw [List.map_cons, List.nodup_cons] at hnodup
      have hmore : Delimited (itemsText false (entries.map Entry.item) ++ '\x7d' :: rest) :=
        delimited_itemsText (Or.inr rfl) _ rest
      have hkey := yields_nextKey first hsound.1.plain
        (':' :: (e.text ++ (itemsText false (entries.map Entry.item) ++ '\x7d' :: rest)))
      have hfield := yields_readField hsound.1 hfind.1 hseen.1 hmore
      have hunseen : ∀ d ∈ entries, d.name ∉ e.name :: draft.seen := by
        intro d hd
        rw [List.mem_cons, not_or]
        refine ⟨fun heq => hnodup.1 ?_, hseen.2 d hd⟩
        rw [← heq]
        exact List.mem_map_of_mem hd
      have hentries := ih hsound.2 hfind.2 hnodup.2
        ⟨e.change draft.record, e.name :: draft.seen⟩ hunseen false
      have hnames : ((e :: entries).map Entry.name).reverse ++ draft.seen =
          (entries.map Entry.name).reverse ++ e.name :: draft.seen := by
        simp
      have htext : itemsText first ((e :: entries).map Entry.item) ++ '\x7d' :: rest =
          separator first ++ '"' :: (e.name.toList ++ '"' :: ':' ::
            (e.text ++ (itemsText false (entries.map Entry.item) ++ '\x7d' :: rest))) := by
        simp [itemsText, Entry.item]
      rw [htext, readFields, List.all_cons, hnames]
      exact hkey.bind fun _ => hfield.bind fun _ => hentries.map fun _ => ⟨rfl, rfl⟩

/-! ## Records -/

theorem find?_name {entries : List (Entry ρ)} (hnodup : (entries.map Entry.name).Nodup)
    {e : Entry ρ} (he : e ∈ entries) :
    ((entries.map Entry.field).find? fun field => field.name.toList == e.name.toList) =
      some e.field := by
  induction entries with
  | nil => cases he
  | cons first entries ih =>
      rw [List.map_cons, List.nodup_cons] at hnodup
      rw [List.map_cons]
      rcases List.mem_cons.mp he with rfl | hmem
      · rw [List.find?_cons_of_pos]
        exact beq_self_eq_true _
      · rw [List.find?_cons_of_neg]
        · exact ih hnodup.2 hmem
        · intro heq
          have hname : first.name = e.name := String.toList_injective (eq_of_beq heq)
          rw [hname] at hnodup
          exact hnodup.1 (List.mem_map_of_mem hmem)

theorem finish_of_seen {draft : Draft ρ} (h : ∀ field ∈ fields, field.name ∈ draft.seen) :
    draft.finish fields = .ok draft.record := by
  have hnone : (fields.find? fun field => field.required && !draft.seen.contains field.name) =
      none := by
    rw [List.find?_eq_none]
    intro field hfield
    simp [h field hfield]
  rw [Draft.finish, hnone]

/-- A record is read back if all of its fields are. -/
theorem recovers_record [NumberText] {entries : List (Entry ρ)} {text : List Char} {good : Bool} {a : ρ}
    (name : String) (blank : ρ) (hsound : ∀ e ∈ entries, e.Sound)
    (hnodup : (entries.map Entry.name).Nodup) (hfields : entries.map Entry.field = fields)
    (htext : writeRecord (entries.map fun e => (e.name, e.text)) = text)
    (hgood : entries.all Entry.good = good)
    (ha : entries.foldl (fun record e => e.change record) blank = a) :
    Recovers (readRecord name fields blank) text good a := by
  subst hfields htext hgood ha
  intro rest _
  have hread := yields_readFields hsound (fun e he => find?_name hnodup he) hnodup
    ⟨blank, []⟩ (by simp) true rest
  have htext : writeRecord (entries.map fun e => (e.name, e.text)) ++ rest =
      '\x7b' :: (itemsText true (entries.map Entry.item) ++ '\x7d' :: rest) := by
    rw [itemsText_true, writeRecord, List.map_map, List.cons_append, List.append_assoc]
    rfl
  rw [htext]
  refine yields_readBehindBlank rfl (hread.bind_true fun _ => ?_)
  have hfinish : Draft.finish (entries.map Entry.field)
      ⟨entries.foldl (fun record e => e.change record) blank,
        (entries.map Entry.name).reverse ++ []⟩ =
      .ok (entries.foldl (fun record e => e.change record) blank) := by
    apply finish_of_seen
    intro field hfield
    obtain ⟨e, he, rfl⟩ := List.mem_map.mp hfield
    simpa using ⟨e, he, rfl⟩
  change Yields _ _ _ (Draft.finish _ _ >>= _)
  rw [hfinish]
  exact ⟨rfl, rfl, rfl⟩

/-! ## Whole texts -/

theorem readAll_of_recovers {read : Reader α} {text : List Char} {good : Bool} {a : α}
    (h : Recovers read text good a) :
    ((∃ b, readAll read text = .ok b) ↔ good = true) ∧
      (good = true → readAll read text = .ok a) := by
  have hread := h [] delimited_nil
  rw [List.append_nil] at hread
  cases good with
  | true =>
      obtain ⟨hshorter, hok⟩ := yields_true_iff.mp hread
      have hall : readAll read text = .ok a := by
        rw [readAll, hok]
        rfl
      exact ⟨⟨fun _ => rfl, fun _ => ⟨a, hall⟩⟩, fun _ => hall⟩
  | false =>
      have herror : ∀ b, readAll read text ≠ .ok b := by
        intro b hb
        rw [readAll] at hb
        cases hfault : read text with
        | ok t =>
            rw [hfault] at hread
            cases hread.1
        | error fault =>
            rw [hfault] at hb
            cases hb
      exact ⟨⟨fun ⟨b, hb⟩ => absurd hb (herror b), fun hgood => nomatch hgood⟩,
        fun hgood => nomatch hgood⟩

end Raceway.Json
