import WorkflowScript.Json.Basic
import Mathlib.Data.List.Nodup

/-!
# Variations of JSON values

A writer is free in some ways that a reader must not mind: in which order the
fields of an object come, which fields of no meaning stand among them, and
whether an optional field that is null is there at all. `Varies` relates a
value to all that it may become in these ways, at every depth.

`Recovers n read v a` says that `read` takes every variation of `v` for `a`,
as long as the value is no deeper than `n`. There is one rule for each reader
that a decoder is put together from, and only the rule for a field looks at
the order of fields and at what has been added or left out.
-/

namespace WorkflowScript.Json

/-! ## Variations -/

/-- The fields that may be left out where they are null. -/
def optionalNames : List String := ["guard", "returns", "comparison"]

/-- The same fields in the same order with values that `R` relates. Optional
ones that are null may have been dropped. -/
inductive FieldsVary (R : Json → Json → Prop) :
    List (String × Json) → List (String × Json) → Prop
  | nil : FieldsVary R [] []
  | keep {name v v' fs fs'} :
      R v v' → FieldsVary R fs fs' → FieldsVary R ((name, v) :: fs) ((name, v') :: fs')
  | drop {name fs fs'} :
      name ∈ optionalNames → FieldsVary R fs fs' → FieldsVary R ((name, .null) :: fs) fs'

/-- What a value may become. In an object fields may be dropped, fields may
be added that it does not have, other than the tag, and all of them may come
in any order. -/
inductive Varies : Json → Json → Prop
  | null : Varies .null .null
  | bool (b : Bool) : Varies (.bool b) (.bool b)
  | natural (n : Nat) : Varies (.natural n) (.natural n)
  | numeral (text : String) : Varies (.numeral text) (.numeral text)
  | string (s : String) : Varies (.string s) (.string s)
  | array {vs js} : List.Forall₂ Varies vs js → Varies (.array vs) (.array js)
  | object {fields kept added all} :
      FieldsVary Varies fields kept →
      (∀ f ∈ added, f.1 ∉ fields.map Prod.fst ∧ f.1 ≠ "t") →
      all.Perm (kept ++ added) → Varies (.object fields) (.object all)

mutual

/-- A value need not become anything else. -/
theorem Varies.refl : (v : Json) → v.Varies v
  | .null => .null
  | .bool b => .bool b
  | .natural n => .natural n
  | .numeral text => .numeral text
  | .string s => .string s
  | .array vs => .array (Varies.refl_items vs)
  | .object fields => .object (Varies.refl_fields fields) (List.forall_mem_nil _)
      (by rw [List.append_nil])

theorem Varies.refl_items : (vs : List Json) → List.Forall₂ Varies vs vs
  | [] => .nil
  | v :: vs => .cons (Varies.refl v) (Varies.refl_items vs)

theorem Varies.refl_fields : (fs : List (String × Json)) → FieldsVary Varies fs fs
  | [] => .nil
  | (_, v) :: fs => .keep (Varies.refl v) (Varies.refl_fields fs)

end

/-! ## Fields of a varied object -/

variable {α β : Type}

theorem depth_le_depthItems {vs : List Json} {v : Json} (h : v ∈ vs) :
    v.depth ≤ depthItems vs := by
  induction vs with
  | nil => cases h
  | cons w vs ih =>
      rcases List.mem_cons.mp h with rfl | h
      · exact Nat.le_max_left ..
      · exact Nat.le_trans (ih h) (Nat.le_max_right ..)

theorem depth_le_depthFields {fs : List (String × Json)} {name : String} {v : Json}
    (h : (name, v) ∈ fs) : v.depth ≤ depthFields fs := by
  induction fs with
  | nil => cases h
  | cons f fs ih =>
      obtain ⟨name', w⟩ := f
      rcases List.mem_cons.mp h with h | h
      · cases h
        exact Nat.le_max_left ..
      · exact Nat.le_trans (ih h) (Nat.le_max_right ..)

theorem FieldsVary.mem_names {R : Json → Json → Prop} {fs fs' : List (String × Json)}
    (h : FieldsVary R fs fs') {name : String} {v : Json} (hmem : (name, v) ∈ fs') :
    name ∈ fs.map Prod.fst := by
  induction h with
  | nil => cases hmem
  | keep _ _ ih =>
      rcases List.mem_cons.mp hmem with hmem | hmem
      · cases hmem
        exact List.mem_cons_self
      · exact List.mem_cons_of_mem _ (ih hmem)
  | drop _ _ ih => exact List.mem_cons_of_mem _ (ih hmem)

/-- What becomes of one field, if no other one has its name: it is there once,
or it was a null one that may be left out. -/
theorem FieldsVary.field {R : Json → Json → Prop} {fs fs' : List (String × Json)}
    (h : FieldsVary R fs fs') (hdistinct : (fs.map Prod.fst).Nodup) {name : String} {v : Json}
    (hmem : (name, v) ∈ fs) :
    (∃ v', R v v' ∧ (name, v') ∈ fs' ∧ ∀ w, (name, w) ∈ fs' → w = v') ∨
      (v = .null ∧ name ∈ optionalNames ∧ ∀ w, (name, w) ∉ fs') := by
  induction h with
  | nil => cases hmem
  | @keep name₀ v₀ v₀' fs fs' hR hrest ih =>
      obtain ⟨hnew, hdistinct⟩ := List.nodup_cons.mp hdistinct
      rcases List.mem_cons.mp hmem with heq | htail
      · cases heq
        refine .inl ⟨v₀', hR, List.mem_cons_self, fun w hw => ?_⟩
        rcases List.mem_cons.mp hw with hw | hw
        · cases hw
          rfl
        · exact absurd (hrest.mem_names hw) hnew
      · have hne : name ≠ name₀ := by
          rintro rfl
          exact hnew (List.mem_map.mpr ⟨_, htail, rfl⟩)
        have hskip : ∀ w, (name, w) ∈ (name₀, v₀') :: fs' → (name, w) ∈ fs' := fun w hw =>
          (List.mem_cons.mp hw).resolve_left fun heq => hne (congrArg Prod.fst heq)
        rcases ih hdistinct htail with ⟨v', hv', hmem', hone⟩ | ⟨hnull, hoptional, hnone⟩
        · exact .inl ⟨v', hv', List.mem_cons_of_mem _ hmem', fun w hw => hone w (hskip w hw)⟩
        · exact .inr ⟨hnull, hoptional, fun w hw => hnone w (hskip w hw)⟩
  | drop hoptional hrest ih =>
      obtain ⟨hnew, hdistinct⟩ := List.nodup_cons.mp hdistinct
      rcases List.mem_cons.mp hmem with heq | htail
      · cases heq
        exact .inr ⟨rfl, hoptional, fun w hw => hnew (hrest.mem_names hw)⟩
      · exact ih hdistinct htail

theorem lookup_of_mem {fs : List (String × Json)} {name : String} {v : Json}
    (hmem : (name, v) ∈ fs) (hone : ∀ w, (name, w) ∈ fs → w = v) :
    fs.lookup name = some v := by
  induction fs with
  | nil => cases hmem
  | cons f fs ih =>
      obtain ⟨name', w⟩ := f
      by_cases hname : name = name'
      · subst hname
        obtain rfl := hone w List.mem_cons_self
        exact List.lookup_cons_self
      · rw [List.lookup_cons, beq_eq_false_iff_ne.mpr hname]
        refine ih ((List.mem_cons.mp hmem).resolve_left fun heq => ?_) fun w hw =>
          hone w (List.mem_cons_of_mem _ hw)
        exact hname (congrArg Prod.fst heq)

theorem lookup_of_not_mem {fs : List (String × Json)} {name : String}
    (hnone : ∀ w, (name, w) ∉ fs) : fs.lookup name = none := by
  rw [List.lookup_eq_none_iff]
  rintro ⟨name', w⟩ hmem
  rw [bne_iff_ne]
  rintro rfl
  exact hnone w hmem

/-- The fields of an object hold those of `part`, and no name twice. -/
structure Carries (fs part : List (String × Json)) : Prop where
  distinct : (fs.map Prod.fst).Nodup
  holds : part ⊆ fs

theorem Carries.self {fs : List (String × Json)} (h : (fs.map Prod.fst).Nodup) : Carries fs fs :=
  ⟨h, fun _ hf => hf⟩

/-- A tag in front of the fields. -/
theorem Carries.tagged {fs : List (String × Json)} {v : Json} (h : ("t" :: fs.map Prod.fst).Nodup) :
    Carries (("t", v) :: fs) fs :=
  ⟨h, List.subset_cons_self _ _⟩

/-- A field of an object is found in each of its variations, wherever it
stands there, unless it has been left out. -/
theorem Varies.get? {fs part : List (String × Json)} {j : Json} (h : (Json.object fs).Varies j)
    (hfs : Carries fs part) {name : String} {v : Json} (hpart : (name, v) ∈ part) :
    (∃ v', v.Varies v' ∧ j.get? name = some v' ∧ v'.depth < j.depth) ∨
      (v = .null ∧ name ∈ optionalNames ∧ j.get? name = none) := by
  have hmem : (name, v) ∈ fs := hfs.holds hpart
  cases h with
  | @object fields kept added all hkept hadded hperm =>
      have hname : name ∈ fs.map Prod.fst := List.mem_map_of_mem (f := Prod.fst) hmem
      -- A field of this name is none of those that have been added.
      have hin : ∀ w, (name, w) ∈ all → (name, w) ∈ kept := by
        intro w hw
        rcases List.mem_append.mp (hperm.mem_iff.mp hw) with hw | hw
        · exact hw
        · exact absurd hname (hadded _ hw).1
      rcases hkept.field hfs.distinct hmem with ⟨v', hv', hmem', hone⟩ | ⟨hnull, hoptional, hnone⟩
      · have hall : (name, v') ∈ all := hperm.mem_iff.mpr (List.mem_append_left _ hmem')
        exact .inl ⟨v', hv', lookup_of_mem hall fun w hw => hone w (hin w hw),
          Nat.lt_succ_of_le (depth_le_depthFields hall)⟩
      · exact .inr ⟨hnull, hoptional, lookup_of_not_mem fun w hw => hnone w (hin w hw)⟩

/-! ## Readers that recover a value -/

/-- Every variation of `v` that is no deeper than `n` is read as `a`. -/
def Recovers (n : Nat) (read : Json → Option α) (v : Json) (a : α) : Prop :=
  ∀ j, v.Varies j → j.depth ≤ n → read j = some a

namespace Recovers

variable {n : Nat} {v : Json} {fs part : List (String × Json)} {a : α} {b : β}
  {read : Json → Option α} {name : String}

theorem lower (h : Recovers (n + 1) read v a) : Recovers n read v a :=
  fun j hj hn => h j hj (Nat.le_succ_of_le hn)

/-- A reader that is told the depth of the value. -/
theorem whole {read : Nat → Json → Option α} (h : ∀ n, Recovers n (read n) v a) :
    ∀ n, Recovers n (fun j => read j.depth j) v a :=
  fun _ j hj _ => h j.depth j hj (Nat.le_refl _)

/-! ### Putting readers together -/

protected theorem pure (v : Json) (a : α) : Recovers n (fun _ => some a) v a :=
  fun _ _ _ => rfl

protected theorem bind {next : α → Json → Option β} (h : Recovers n read v a)
    (hnext : Recovers n (next a) v b) :
    Recovers n (fun j => read j >>= fun x => next x j) v b := by
  intro j hj hn
  show (read j).bind _ = some b
  rw [h j hj hn]
  exact hnext j hj hn

protected theorem map (f : α → β) (h : Recovers n read v a) :
    Recovers n (fun j => (read j).map f) v (f a) := by
  intro j hj hn
  show (read j).map f = _
  rw [h j hj hn]
  rfl

/-! ### Single values -/

theorem string (s : String) : Recovers n asString (.string s) s := by
  rintro _ ⟨⟩ _
  rfl

theorem bool (b : Bool) : Recovers n asBool (.bool b) b := by
  rintro _ ⟨⟩ _
  rfl

theorem word {k : Nat} (h : k < wordLimit) : Recovers n asWord (.natural k) k := by
  rintro _ ⟨⟩ _
  exact if_pos h

/-- A constant that is found by its name. -/
theorem named {all : List α} {label : α → String}
    (h : all.find? (fun x => label x == label a) = some a) :
    Recovers n (asNamed all label) (.string (label a)) a := by
  rintro _ ⟨⟩ _
  exact h

/-! ### Arrays -/

theorem list {vs : List Json} {as : List α} (h : List.Forall₂ (Recovers n read) vs as) :
    Recovers n (asList read) (.array vs) as := by
  rintro _ ⟨⟩ hn
  rename_i js hjs
  have hitems : ∀ j ∈ js, j.depth ≤ n := fun j hj =>
    Nat.le_trans (depth_le_depthItems hj) (Nat.le_trans (Nat.le_succ _) hn)
  show js.mapM read = some as
  clear hn
  induction hjs generalizing as with
  | nil =>
      cases h
      rfl
  | cons hj _ ih =>
      cases h with
      | cons hread hrest =>
          obtain ⟨hitem, hitems⟩ := List.forall_mem_cons.mp hitems
          rw [List.mapM_cons, hread _ hj hitem, ih hrest hitems]
          rfl

theorem pair {w : Json} {read' : Json → Option β} (h : Recovers n read v a)
    (h' : Recovers n read' w b) : Recovers n (asPair read read') (.array [v, w]) (a, b) := by
  rintro _ ⟨⟩ hn
  rename_i js hjs
  cases hjs with
  | @cons _ x _ _ hx hrest =>
      cases hrest with
      | @cons _ y _ _ hy hnil =>
          cases hnil
          have hdepth : depthItems [x, y] ≤ n := Nat.le_trans (Nat.le_succ _) hn
          have hleft := h x hx (Nat.le_trans (depth_le_depthItems (by simp)) hdepth)
          have hright := h' y hy (Nat.le_trans (depth_le_depthItems (by simp)) hdepth)
          show (read x >>= fun a => read' y >>= fun b => some (a, b)) = _
          rw [hleft, hright]
          rfl

/-! ### Fields -/

theorem field (hfs : Carries fs part) (hmem : (name, v) ∈ part)
    (hname : name ∉ optionalNames) (h : Recovers n read v a) :
    Recovers (n + 1) (Json.field name read) (.object fs) a := by
  intro j hj hn
  rcases hj.get? hfs hmem with ⟨v', hv', hget, hdepth⟩ | ⟨-, hoptional, -⟩
  · rw [Json.field, hget]
    exact h v' hv' (Nat.le_of_lt_succ (Nat.lt_of_lt_of_le hdepth hn))
  · exact absurd hoptional hname

/-- The tag in front of the fields of a payload. -/
theorem tag {label : String} (hfs : Carries (("t", .string label) :: fs) fs) :
    Recovers (n + 1) (Json.field "t" asString) (.object (("t", .string label) :: fs)) label :=
  field (.self hfs.distinct) List.mem_cons_self (by decide) (.string label)

/-- An optional field that is null, or that is not there. -/
theorem fieldNone (hfs : Carries fs part) (hmem : (name, .null) ∈ part) :
    Recovers n (field? name read) (.object fs) none := by
  intro j hj _
  rcases hj.get? hfs hmem with ⟨v', hv', hget, -⟩ | ⟨-, -, hget⟩
  · cases hv'
    rw [field?, hget]
  · rw [field?, hget]

theorem fieldSome (hfs : Carries fs part) (hmem : (name, v) ∈ part)
    (hv : v ≠ .null) (h : Recovers n read v a) :
    Recovers (n + 1) (field? name read) (.object fs) (some a) := by
  intro j hj hn
  rcases hj.get? hfs hmem with ⟨v', hv', hget, hdepth⟩ | ⟨hnull, -, -⟩
  · have hread := h v' hv' (Nat.le_of_lt_succ (Nat.lt_of_lt_of_le hdepth hn))
    rw [field?, hget]
    cases hv' with
    | null => exact absurd rfl hv
    | _ => exact congrArg (Option.map some) hread
  · exact absurd hnull hv

/-- An optional field, as it is written. -/
theorem fieldOption {write : α → Json} {o : Option α} (hfs : Carries fs part)
    (hmem : (name, ofOption write o) ∈ part) (hwrite : ∀ a, write a ≠ .null)
    (h : ∀ a, o = some a → Recovers n read (write a) a) :
    Recovers (n + 1) (field? name read) (.object fs) o := by
  cases o with
  | none => exact fieldNone hfs hmem
  | some a => exact fieldSome hfs hmem (hwrite a) (h a rfl)

end Recovers

end WorkflowScript.Json
