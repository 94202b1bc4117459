import Steward.Json.Record

/-!
# What reading a record says

Reading a record first checks the values of its fields and then builds the record from them. Both
go by the same decoders, so for an object without repeated names the building alone decides, and it
succeeds exactly if each field's decoder does on the value of that name.

* `Fields.Checked`: fields whose checks pass wherever a record is built; all combinators give such.
* `Fields.read_object_eq_ok_iff`: reading an object is building the record.
* `Fields.build_required_eq_ok_iff` and its like: building, field by field.
* `tagged_object`, `exists_of_tagged`: tagged records are read by the fields of their alternative.
-/

namespace Steward.Json

theorem orForm_eq_ok_iff {α : Type} {x : Option α} {a : α} :
    Decoder.orForm x = .ok a ↔ x = some a := by
  cases x <;> simp [Decoder.orForm]

theorem Decoder.integer_eq_ok_iff {lo hi n : Int} {v : Json} :
    Decoder.integer lo hi v = .ok n ↔ v = .int n ∧ lo ≤ n ∧ n ≤ hi := by
  cases v with
  | int m =>
    rw [Decoder.integer, Json.int.injEq]
    split
    · next hm =>
      rw [Except.ok.injEq]
      exact ⟨fun h => ⟨h, h ▸ hm⟩, And.left⟩
    · next hm => exact ⟨nofun, fun h => (hm (h.1 ▸ h.2)).elim⟩
  | _ => exact ⟨nofun, nofun⟩

namespace Fields

variable {α β : Type} {byName : Bool} {found : List (String × Json)}

/-! ## Building -/

theorem build_map_eq_ok_iff {g : α → β} {x : Fields α} {b : β} :
    (g <$> x).build byName found = .ok b ↔ ∃ a, x.build byName found = .ok a ∧ g a = b := by
  show (x.build byName found).map g = .ok b ↔ _
  cases x.build byName found <;> simp [Except.map]

theorem build_seq_eq_ok_iff {f : Fields (α → β)} {x : Fields α} {b : β} :
    (f <*> x).build byName found = .ok b ↔
      ∃ g, f.build byName found = .ok g ∧ ∃ a, x.build byName found = .ok a ∧ g a = b := by
  show (f.build byName found >>= fun g => x.build byName found >>= fun a => .ok (g a)) = .ok b ↔ _
  cases f.build byName found <;> cases x.build byName found <;> simp [bind, Except.bind]

theorem build_required_eq_ok_iff {name : String} {d : Decoder α} {a : α} :
    (required name d).build byName found = .ok a ↔
      ∃ v, found.lookup name = some v ∧ d v = .ok a := by
  simp only [required]
  cases found.lookup name <;> simp

theorem build_optional_eq_ok_iff {name : String} {d : Decoder α} {a : Option α} :
    (optional name d).build byName found = .ok a ↔
      (∃ v, found.lookup name = some v ∧ d.option v = .ok a) ∨
        found.lookup name = none ∧ byName = true ∧ a = none := by
  simp only [optional]
  cases found.lookup name <;> cases byName <;> simp [eq_comm]

theorem build_defaulted_eq_ok_iff {name : String} {d : Decoder α} {a b : α} :
    (defaulted name d b).build byName found = .ok a ↔
      (∃ v, found.lookup name = some v ∧ d v = .ok a) ∨ found.lookup name = none ∧ a = b := by
  simp only [defaulted]
  cases found.lookup name <;> simp [eq_comm]

/-! ## Checks -/

/-- Wherever a record is built, the values of its fields pass their checks. -/
class Checked (f : Fields α) : Prop where
  passes : ∀ {byName found a name check v}, f.build byName found = .ok a →
    f.checks.lookup name = some check → found.lookup name = some v → check v = .ok ()

theorem check_eq_ok {d : Decoder α} {v : Json} {a : α} (h : d v = .ok a) : check d v = .ok () := by
  rw [check, h]
  rfl

theorem lookup_singleton_eq_some {γ : Type} {name other : String} {c c' : γ}
    (h : [(name, c)].lookup other = some c') : other = name ∧ c = c' := by
  rw [List.lookup_cons] at h
  split at h
  · next heq => exact ⟨beq_iff_eq.1 heq, Option.some.inj h⟩
  · cases h

instance {name : String} {d : Decoder α} : Checked (required name d) where
  passes hbuild hcheck hv := by
    obtain ⟨rfl, rfl⟩ := lookup_singleton_eq_some hcheck
    obtain ⟨w, hw, hd⟩ := build_required_eq_ok_iff.1 hbuild
    obtain rfl := Option.some.inj (hw.symm.trans hv)
    exact check_eq_ok hd

instance {name : String} {d : Decoder α} : Checked (optional name d) where
  passes hbuild hcheck hv := by
    obtain ⟨rfl, rfl⟩ := lookup_singleton_eq_some hcheck
    obtain ⟨w, hw, hd⟩ | ⟨hnone, -⟩ := build_optional_eq_ok_iff.1 hbuild
    · obtain rfl := Option.some.inj (hw.symm.trans hv)
      exact check_eq_ok hd
    · rw [hnone] at hv
      cases hv

instance {name : String} {d : Decoder α} {b : α} : Checked (defaulted name d b) where
  passes hbuild hcheck hv := by
    obtain ⟨rfl, rfl⟩ := lookup_singleton_eq_some hcheck
    obtain ⟨w, hw, hd⟩ | ⟨hnone, -⟩ := build_defaulted_eq_ok_iff.1 hbuild
    · obtain rfl := Option.some.inj (hw.symm.trans hv)
      exact check_eq_ok hd
    · rw [hnone] at hv
      cases hv

instance {g : α → β} {x : Fields α} [x.Checked] : Checked (g <$> x) where
  passes hbuild hcheck hv := by
    obtain ⟨a, ha, -⟩ := build_map_eq_ok_iff.1 hbuild
    exact Checked.passes ha hcheck hv

instance {f : Fields (α → β)} {x : Fields α} [f.Checked] [x.Checked] : Checked (f <*> x) where
  passes hbuild hcheck hv := by
    obtain ⟨g, hg, a, ha, -⟩ := build_seq_eq_ok_iff.1 hbuild
    have hlookup : (f.checks ++ x.checks).lookup _ = some _ := hcheck
    rw [List.lookup_append, Option.or_eq_some_iff] at hlookup
    obtain hf | ⟨-, hx⟩ := hlookup
    · exact Checked.passes hg hf hv
    · exact Checked.passes ha hx hv

/-! ## Reading -/

/-- The scan of an object passes where no name is repeated and every known value passes its
check. -/
theorem scan_eq_ok {checks : List (String × (Json → Except Fault Unit))} {seen : List String}
    {fields : List (String × Json)} (hnodup : (fields.map Prod.fst).Nodup)
    (hseen : ∀ name ∈ fields.map Prod.fst, name ∉ seen)
    (hpass : ∀ name v check, (name, v) ∈ fields → checks.lookup name = some check →
      check v = .ok ()) : scan checks seen fields = .ok () := by
  induction fields generalizing seen with
  | nil => rfl
  | cons field rest ih =>
    obtain ⟨name, v⟩ := field
    rw [List.map_cons, List.nodup_cons] at hnodup
    have hrest : ∀ other ∈ rest.map Prod.fst, other ∉ seen :=
      fun other h => hseen other (List.mem_cons_of_mem _ h)
    have hpass' := fun other w check h => hpass other w check (List.mem_cons_of_mem _ h)
    rw [scan]
    split
    · exact ih hnodup.2 hrest hpass'
    · next check hcheck =>
      have hnew : seen.contains name = false := by
        simpa using hseen name List.mem_cons_self
      rw [hnew, if_neg Bool.false_ne_true, hpass name v check List.mem_cons_self hcheck]
      refine ih hnodup.2 (fun other h => ?_) hpass'
      rw [List.mem_cons, not_or]
      exact ⟨fun heq => hnodup.1 (heq ▸ h), hrest other h⟩

theorem lookup_of_mem {γ : Type} {l : List (String × γ)} {name : String} {c : γ}
    (hnodup : (l.map Prod.fst).Nodup) (h : (name, c) ∈ l) : l.lookup name = some c := by
  induction l with
  | nil => cases h
  | cons x rest ih =>
    obtain ⟨other, c'⟩ := x
    rw [List.map_cons, List.nodup_cons] at hnodup
    rw [List.lookup_cons]
    obtain heq | hrest := List.mem_cons.1 h
    · cases heq
      rw [beq_self_eq_true]
    · have hne : name ≠ other := by
        rintro rfl
        exact hnodup.1 (List.mem_map.2 ⟨_, hrest, rfl⟩)
      rw [beq_eq_false_iff_ne.2 hne]
      exact ih hnodup.2 hrest

/-- Where no name is repeated, reading an object is building the record from its fields. -/
theorem read_object_eq_ok_iff {f : Fields α} [f.Checked] {fields : List (String × Json)} {a : α}
    (hnodup : (fields.map Prod.fst).Nodup) :
    f.read (.object fields) = .ok a ↔ f.build true fields = .ok a := by
  rw [read_object]
  constructor
  · intro h
    cases hscan : scan f.checks [] fields with
    | error e => rw [hscan] at h; cases h
    | ok => rwa [hscan] at h
  · intro h
    -- The values that the record is built from are those that the scan checks.
    have hscan : scan f.checks [] fields = .ok () :=
      scan_eq_ok hnodup (fun _ _ => List.not_mem_nil) fun name v check hmem hcheck =>
        Checked.passes h hcheck (lookup_of_mem hnodup hmem)
    rw [hscan]
    exact h

/-- Whatever is read, from an object or from a list, is built from values. -/
theorem exists_build_of_read {f : Fields α} {v : Json} {a : α} (h : f.read v = .ok a) :
    ∃ byName found, f.build byName found = .ok a := by
  unfold read at h
  split at h
  · next fields =>
    cases hscan : scan f.checks [] fields with
    | error e => rw [hscan] at h; cases h
    | ok => rw [hscan] at h; exact ⟨_, _, h⟩
  · next fields =>
    cases hscan : scan f.checks [] fields with
    | error e => rw [hscan] at h; cases h
    | ok => rw [hscan] at h; cases h
  · next items =>
    cases hscan : scanItems f.checks items with
    | error e => rw [hscan] at h; cases h
    | ok found => rw [hscan] at h; exact ⟨_, _, h⟩
  · cases h

end Fields

/-! ## Tagged records -/

section

variable {α : Type} {alternative? : String → Option (Fields α)} {f : Fields α}

theorem findTag_some {β : Type} {read? : String → Option β} {b : β} {fields : List (String × Json)}
    (h : ∀ field ∈ fields, field.1 ≠ tagName ∧ field.2.readable = true) :
    findTag read? (some b) fields = .ok b := by
  induction fields with
  | nil => rfl
  | cons field rest ih =>
    obtain ⟨name, v⟩ := field
    obtain ⟨hname, hv⟩ := h _ List.mem_cons_self
    rw [findTag, if_neg hname, if_pos hv]
    exact ih fun field hmem => h field (List.mem_cons_of_mem _ hmem)

/-- A tagged record with its tag in front is read by the fields of that alternative. -/
theorem tagged_object {kind : String} {fields : List (String × Json)}
    (hf : alternative? kind = some f)
    (h : ∀ field ∈ fields, field.1 ≠ tagName ∧ field.2.readable = true) :
    tagged alternative? (.object ((tagName, .text kind) :: fields)) = f.read (.object fields) := by
  have htag : findTag alternative? none ((tagName, .text kind) :: fields) = .ok f := by
    rw [findTag, if_pos rfl]
    show (Decoder.orForm (alternative? kind) >>= fun a => findTag alternative? (some a) fields) = _
    rw [hf]
    exact findTag_some h
  rw [tagged, htag]
  -- Without its tag the object is left with the fields of the alternative.
  change f.read (.object (List.filter _ ((tagName, .text kind) :: fields))) = _
  rw [List.filter_cons_of_neg (by simp),
    List.filter_eq_self.2 fun field hmem => decide_eq_true (h field hmem).1]

theorem findTag_eq_ok {β : Type} {read? : String → Option β} {b : β} {found : Option β}
    {fields : List (String × Json)} (h : findTag read? found fields = .ok b) :
    found = some b ∨ ∃ kind, read? kind = some b := by
  induction fields generalizing found with
  | nil =>
    cases found with
    | none => cases h
    | some b' => cases h; exact .inl rfl
  | cons field rest ih =>
    obtain ⟨name, v⟩ := field
    rw [findTag.eq_def] at h
    simp only at h
    split at h
    · cases found with
      | some b' => cases h
      | none =>
        cases hkind : v.text?.bind read? with
        | none => rw [hkind] at h; cases h
        | some b' =>
          rw [hkind] at h
          obtain ⟨kind, -, hread⟩ := Option.bind_eq_some_iff.1 hkind
          obtain heq | hex := ih h
          · exact .inr ⟨kind, hread.trans heq⟩
          · exact .inr hex
    · split at h
      · exact ih h
      · cases h

/-- Whatever is read as a tagged record is read by the fields of an alternative. -/
theorem exists_of_tagged {v : Json} {a : α} (h : tagged alternative? v = .ok a) :
    ∃ kind f w, alternative? kind = some f ∧ f.read w = .ok a := by
  unfold tagged at h
  split at h
  · next fields =>
    cases htag : findTag alternative? none fields with
    | error e => rw [htag] at h; cases h
    | ok f =>
      rw [htag] at h
      obtain heq | ⟨kind, hkind⟩ := findTag_eq_ok htag
      · cases heq
      · change f.read (.object (fields.filter _)) = .ok a at h
        exact ⟨kind, f, _, hkind, h⟩
  · next tag items =>
    cases hf : alternative? tag with
    | none => rw [hf] at h; cases h
    | some f =>
      rw [hf] at h
      simp only [Decoder.orForm, bind, Except.bind] at h
      split at h
      · exact ⟨tag, f, _, hf, h⟩
      · cases h
  · cases h

end

end Steward.Json
