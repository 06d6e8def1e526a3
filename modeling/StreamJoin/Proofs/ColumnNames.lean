import StreamJoin.Proofs.JsonValues

namespace StreamJoin

/-!
# Names of columns

A schema that is built from columns has a name for each of them, and joining two
such schemas keeps the names.  A schema that is read from JSON is taken as it is.
So a schema made in any way has no empty name exactly if the texts that were read
for it have none, which is the main result, `Schema.named_iff_decoded_named`.  The
reader refuses no schema for its names: every schema at all is read from some text.
-/

namespace Schema

/-- No column has an empty name. -/
def Named (schema : Schema) : Prop := ∀ column ∈ schema.columns, column.name ≠ ""

instance : DecidablePred Named := fun schema =>
  inferInstanceAs (Decidable (∀ column ∈ schema.columns, column.name ≠ ""))

section Named

variable {columns : List Column} {left right schema : Schema}

/-- No column without a name is found exactly if all columns are named. -/
theorem firstUnnamed?_eq_none_iff :
    firstUnnamed? columns = none ↔ Named ⟨columns⟩ := by
  simp [firstUnnamed?, Named, List.findIdx?_eq_none_iff]

/-- Columns make a schema exactly if all of them are named. -/
theorem ofColumns_eq_ok_iff :
    ofColumns columns = .ok schema ↔ schema = ⟨columns⟩ ∧ schema.Named := by
  unfold ofColumns
  cases found : firstUnnamed? columns with
  | some index =>
      refine ⟨nofun, ?_⟩
      rintro ⟨rfl, named⟩
      rw [firstUnnamed?_eq_none_iff.mpr named] at found
      cases found
  | none =>
      constructor
      · rintro ⟨⟩
        exact ⟨rfl, firstUnnamed?_eq_none_iff.mp found⟩
      · rintro ⟨rfl, -⟩
        rfl

/-- A joined schema is named exactly if both parts are. -/
theorem named_join_iff : (left.join right).Named ↔ left.Named ∧ right.Named :=
  List.forall_mem_append

end Named

/--
A way to make a schema: from columns, from named types, from parts, or from a JSON
text.
-/
inductive Origin where
  | columns (given : List Column)
  | pairs (given : List (String × ColumnType))
  | empty
  | join (left right : Origin)
  | text (source : String)
  deriving Repr

namespace Origin

/-- The schema that is made, if no step of making it fails. -/
def schema? : Origin → Option Schema
  | .columns given => (ofColumns given).toOption
  | .pairs given => (ofColumns (given.map fun pair => ⟨pair.1, pair.2⟩)).toOption
  | .empty => some .empty
  | .join left right =>
      match left.schema?, right.schema? with
      | some leftSchema, some rightSchema => some (leftSchema.join rightSchema)
      | _, _ => none
  | .text source => ofJsonText? source

/-- The texts that are read. -/
def texts : Origin → List String
  | .join left right => left.texts ++ right.texts
  | .text source => [source]
  | _ => []

end Origin

/--
The columns that a text stands for would be accepted if a schema were built from
them.
-/
def DecodesNamed (source : String) : Prop :=
  ∀ decoded,
    ofJsonText? source = some decoded → ofColumns decoded.columns = .ok decoded

/-- A text decodes to a named schema exactly if what it decodes to is named. -/
theorem decodesNamed_iff {source : String} {decoded : Schema}
    (decodes : ofJsonText? source = some decoded) :
    DecodesNamed source ↔ decoded.Named := by
  constructor
  · intro accepted
    exact (ofColumns_eq_ok_iff.mp (accepted decoded decodes)).2
  · intro named other otherDecodes
    cases decodes.symm.trans otherDecodes
    exact ofColumns_eq_ok_iff.mpr ⟨rfl, named⟩

/-- A schema that was made of columns is named. -/
theorem named_of_ofColumns {columns : List Column} {schema : Schema}
    (made : (ofColumns columns).toOption = some schema) :
    schema.Named := by
  cases built : ofColumns columns with
  | error fault =>
      rw [built] at made
      cases made
  | ok other =>
      rw [built] at made
      cases made
      exact (ofColumns_eq_ok_iff.mp built).2

/--
However a schema is made, it has no column with an empty name exactly if every text
that was read for it has columns of which a schema could have been built.  But the
reader does not ask for that: for every schema, with whatever names, there is a text
that is read as it.
-/
theorem named_iff_decoded_named (origin : Origin) (schema : Schema) :
    (origin.schema? = some schema →
      (schema.Named ↔ ∀ source ∈ origin.texts, DecodesNamed source)) ∧
    ∃ source, ofJsonText? source = some schema := by
  refine ⟨?_, _, schema.ofJsonText?_toJsonText⟩
  induction origin generalizing schema with
  | columns given =>
      intro made
      exact iff_of_true (named_of_ofColumns made) nofun
  | pairs given =>
      intro made
      exact iff_of_true (named_of_ofColumns made) nofun
  | empty =>
      rintro ⟨⟩
      exact iff_of_true nofun nofun
  | text source =>
      intro made
      rw [← decodesNamed_iff made]
      simp [Origin.texts]
  | join left right leftHypothesis rightHypothesis =>
      intro made
      simp only [Origin.schema?] at made
      split at made
      · rename_i leftSchema rightSchema leftMade rightMade
        cases made
        rw [named_join_iff, leftHypothesis _ leftMade, rightHypothesis _ rightMade]
        exact List.forall_mem_append.symm
      · cases made

/-- A join of built columns with columns that are read. -/
theorem named_iff_decoded_named_sample :
    let source := r#"{"columns":[["v","DOUBLE"]]}"#
    let origin := Origin.join (.pairs [("id", .long)]) (.text source)
    let schema : Schema := ⟨[⟨"id", .long⟩, ⟨"v", .double⟩]⟩
    origin.schema? = some schema ∧
      (schema.Named ↔ ∀ text ∈ origin.texts, DecodesNamed text) := by
  intro source origin schema
  have made : origin.schema? = some schema := by decide +kernel
  exact ⟨made, (named_iff_decoded_named origin schema).1 made⟩

/--
A text with an empty name is read, although its column is refused when a schema is
built from it, and the name stays in every join with the schema.
-/
theorem decoding_accepts_empty_name :
    let source := r#"{"columns":[{"name":"","data_type":"INT"}]}"#
    let decoded : Schema := ⟨[⟨"", .int⟩]⟩
    ofJsonText? source = some decoded ∧
      ofColumns decoded.columns = .error (.badSchema "column 0 has an empty name") ∧
      ¬ decoded.Named ∧
      (Origin.join (.pairs [("id", .long)]) (.text source)).schema? =
        some ⟨[⟨"id", .long⟩, ⟨"", .int⟩]⟩ := by
  refine ⟨by decide +kernel, by decide, by decide, by decide +kernel⟩

end Schema

end StreamJoin
