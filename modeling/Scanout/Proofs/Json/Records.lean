import Scanout.Json.Record
import Scanout.Proofs.Json.Texts

/-!
# Typed values in texts

A word reads back from its numeral, a list from the array of its elements, and a record from its
members: the members may stand in any order and among others, as long as each of the names has the
value that is asked for, or none.
-/

namespace Scanout.Json

section Words

variable {i lo hi : Int} {n : Nat}

lemma integer?_ofInt (hlo : lo ≤ i) (hhi : i ≤ hi) (hleast : -0x8000000000000000 ≤ i)
    (hgreatest : i ≤ 0xFFFFFFFFFFFFFFFF) : integer? lo hi (ofInt i) = some i := by
  simp only [integer?, ofInt, Numeral.integer?_ofInt hleast hgreatest, bind, Option.bind]
  rw [if_pos ⟨hlo, hhi⟩]

lemma natural?_ofNat {greatest : Nat} (h : n ≤ greatest) (hword : n < 2 ^ 64) :
    natural? greatest (ofNat n) = some n := by
  rw [natural?, ofNat, integer?_ofInt (by omega) (by omega) (by omega) (by omega)]
  rfl

lemma word8?_ofNat (h : n < 2 ^ 8) : word8? (ofNat n) = some n :=
  natural?_ofNat (by omega) (by omega)

lemma word32?_ofNat (h : n < 2 ^ 32) : word32? (ofNat n) = some n :=
  natural?_ofNat (by omega) (by omega)

lemma word64?_ofNat (h : n < 2 ^ 64) : word64? (ofNat n) = some n :=
  natural?_ofNat (by omega) h

lemma signed32?_ofInt (hlo : -2 ^ 31 ≤ i) (hhi : i < 2 ^ 31) : signed32? (ofInt i) = some i :=
  integer?_ofInt (by omega) (by omega) (by omega) (by omega)

lemma Writable.ofInt : (ofInt i).Writable := .number .ofInt

lemma Writable.ofNat : (ofNat n).Writable := .ofInt

end Words

section Lists

variable {α β : Type} {read : Json → Option β} {write : α → Json}

/-- Elements that read back read back as a list. -/
lemma list?_map {f : α → β} {xs : List α} (h : ∀ x ∈ xs, read (write x) = some (f x)) :
    list? read (.array (xs.map write)) = some (xs.map f) := by
  induction xs with
  | nil => rfl
  | cons x xs ih =>
    have hrest := ih fun y hy => h y (List.mem_cons_of_mem x hy)
    rw [list?] at hrest ⊢
    rw [List.map_cons, List.mapM_cons, h x List.mem_cons_self, hrest]
    rfl

lemma Writable.array_map {xs : List α} (h : ∀ x ∈ xs, (write x).Writable) :
    (Json.array (xs.map write)).Writable := by
  refine .array fun j hj => ?_
  obtain ⟨x, hx, rfl⟩ := List.mem_map.mp hj
  exact h x hx

lemma nullable?_of_ne_null {j : Json} (h : j ≠ .null) : nullable? read j = (read j).map some := by
  cases j with
  | null => exact absurd rfl h
  | _ => rfl

/-- A value that reads back and is not `null` reads back where it may be absent. -/
lemma nullable?_ofNullable {read : Json → Option α} {o : Option α}
    (h : ∀ x ∈ o, read (write x) = some x) (hnull : ∀ x, write x ≠ .null) :
    nullable? read (ofNullable write o) = some o := by
  cases o with
  | none => rfl
  | some x =>
    rw [ofNullable, nullable?_of_ne_null (hnull x), h x rfl]
    rfl

lemma Writable.ofNullable {o : Option α} (h : ∀ x ∈ o, (write x).Writable) :
    (ofNullable write o).Writable := by
  cases o with
  | none => exact .null
  | some x => exact h x rfl

end Lists

section Records

variable {names : List String} {values : List Json} {members foreign : List (Literal × Json)}
  {name : String}

/-- A record is found among members that have at most one value for each of its names. -/
lemma record?_object {found : List (Option Json)} (hnames : ∀ m ∈ members, m.1.isSome = true)
    (hfound : names.map (valuesOf · members) = found.map Option.toList) :
    (Json.object members).record? names = some ⟨false, found⟩ := by
  have hlength : ∀ name ∈ names, (valuesOf name members).length ≤ 1 := by
    intro name hname
    have hmem : valuesOf name members ∈ found.map Option.toList :=
      hfound ▸ List.mem_map_of_mem hname
    obtain ⟨o, -, ho⟩ := List.mem_map.mp hmem
    exact ho ▸ Option.length_toList_le
  have hhead : names.map (fun name => (valuesOf name members).head?) = found := by
    calc names.map (fun name => (valuesOf name members).head?)
        = (names.map (valuesOf · members)).map List.head? := by rw [List.map_map]; rfl
      _ = (found.map Option.toList).map List.head? := by rw [hfound]
      _ = found := by
        rw [List.map_map]
        exact (List.map_congr_left fun _ _ => Option.head?_toList).trans (List.map_id found)
  rw [record?, if_pos ⟨List.all_eq_true.mpr hnames, by simpa using hlength⟩, hhead]

lemma valuesOf_cons_self {value : Json} :
    valuesOf name ((some name, value) :: members) = value :: valuesOf name members := by
  simp [valuesOf]

lemma valuesOf_cons_of_ne {m : Literal × Json} (h : m.1 ≠ some name) :
    valuesOf name (m :: members) = valuesOf name members := by
  simp [valuesOf, h]

lemma valuesOf_append :
    valuesOf name (members ++ foreign) = valuesOf name members ++ valuesOf name foreign := by
  simp [valuesOf]

lemma valuesOf_eq_nil (h : ∀ m ∈ members, m.1 ≠ some name) : valuesOf name members = [] := by
  rw [valuesOf, List.filter_eq_nil_iff.mpr (by simpa using h), List.map_nil]

/-- The members of a record. -/
def named (names : List String) (values : List Json) : List (Literal × Json) :=
  (names.zip values).map fun (name, value) => (some name, value)

lemma named_cons {value : Json} :
    named (name :: names) (value :: values) = (some name, value) :: named names values :=
  rfl

/-- Each value of a record, if its name is kept. -/
def kept (keeps : String → Bool) (names : List String) (values : List Json) :
    List (Option Json) :=
  (names.zip values).map fun (name, value) => if keeps name then some value else none

lemma exists_of_mem_named {m : Literal × Json} (h : m ∈ named names values) :
    ∃ name ∈ names, ∃ value ∈ values, m = (some name, value) := by
  obtain ⟨⟨name, value⟩, hmem, rfl⟩ := List.mem_map.mp h
  exact ⟨name, (List.of_mem_zip hmem).1, value, (List.of_mem_zip hmem).2, rfl⟩

/-- Of the members that are kept each name has its own value. -/
lemma map_valuesOf_named (keeps : String → Bool) (hnodup : names.Nodup)
    (hlength : values.length = names.length) :
    names.map (valuesOf · ((named names values).filter (·.1.any keeps))) =
      (kept keeps names values).map Option.toList := by
  induction names generalizing values with
  | nil => rfl
  | cons name names ih =>
    obtain ⟨value, values, rfl⟩ := List.exists_cons_of_length_eq_add_one hlength
    obtain ⟨hname, hnodup⟩ := List.nodup_cons.mp hnodup
    have hself : valuesOf name ((named names values).filter (·.1.any keeps)) = [] := by
      refine valuesOf_eq_nil fun m hm => ?_
      obtain ⟨name', hname', _, -, rfl⟩ := exists_of_mem_named (List.mem_filter.mp hm).1
      rintro heq
      exact hname (Option.some.inj heq ▸ hname')
    have hrest : names.map (valuesOf · ((named (name :: names) (value :: values)).filter
        (·.1.any keeps))) = (kept keeps names values).map Option.toList := by
      rw [← ih hnodup (Nat.succ.inj hlength)]
      refine List.map_congr_left fun name' hname' => ?_
      have hne : some name ≠ some name' := fun heq => hname (Option.some.inj heq ▸ hname')
      rw [named_cons, List.filter_cons]
      split
      · exact valuesOf_cons_of_ne hne
      · rfl
    rw [List.map_cons, hrest]
    refine congrArg₂ List.cons ?_ rfl
    rw [named_cons, List.filter_cons]
    cases hkeeps : keeps name with
    | true => simp [hkeeps, valuesOf_cons_self, hself]
    | false => simp [hkeeps, hself]

/-- A record is found among members that hold some of its own in any order, and foreign ones. -/
lemma record?_of_perm (keeps : String → Bool) (hnodup : names.Nodup)
    (hlength : values.length = names.length)
    (hforeign : ∀ m ∈ foreign, ∃ name, m.1 = some name ∧ name ∉ names)
    (hperm : members.Perm ((named names values).filter (·.1.any keeps) ++ foreign)) :
    (Json.object members).record? names = some ⟨false, kept keeps names values⟩ := by
  refine record?_object (fun m hm => ?_) ?_
  · rcases List.mem_append.mp (hperm.mem_iff.mp hm) with hm | hm
    · obtain ⟨name, -, value, -, rfl⟩ := exists_of_mem_named (List.mem_filter.mp hm).1
      rfl
    · obtain ⟨name, hname, -⟩ := hforeign m hm
      rw [hname]
      rfl
  · have hown : names.map (valuesOf · members) =
        names.map (valuesOf · ((named names values).filter (·.1.any keeps))) := by
      refine List.map_congr_left fun name hname => ?_
      have hnone : valuesOf name foreign = [] := by
        refine valuesOf_eq_nil fun m hm heq => ?_
        obtain ⟨name', hname', hnot⟩ := hforeign m hm
        cases heq.symm.trans hname'
        exact hnot hname
      have hvalues : (valuesOf name members).Perm
          (valuesOf name ((named names values).filter (·.1.any keeps))) := by
        have h := (hperm.filter (·.1 = some name)).map (·.2)
        rwa [← valuesOf, ← valuesOf, valuesOf_append, hnone, List.append_nil] at h
      -- at most one value of each name is kept, so that there is only one order
      have hmem : valuesOf name ((named names values).filter (·.1.any keeps)) ∈
          (kept keeps names values).map Option.toList :=
        map_valuesOf_named keeps hnodup hlength ▸ List.mem_map_of_mem hname
      obtain ⟨o, -, ho⟩ := List.mem_map.mp hmem
      rw [← ho] at hvalues ⊢
      cases o with
      | none => exact List.perm_nil.mp hvalues
      | some value => exact List.perm_singleton.mp hvalues
    rw [hown, map_valuesOf_named keeps hnodup hlength]

/-- A value that is kept is read, and a default stands for the others. -/
lemma Record.withDefault_kept {α : Type} {keeps : String → Bool} {i : Nat} {value : Json} {x d : α}
    {read : Json → Option α} (hname : names[i]? = some name) (hvalue : values[i]? = some value)
    (hread : read value = some x) :
    (⟨false, kept keeps names values⟩ : Record).withDefault i d read =
      some (if keeps name = true then x else d) := by
  have hzip : (names.zip values)[i]? = some (name, value) :=
    List.getElem?_zip_eq_some.mpr ⟨hname, hvalue⟩
  simp only [withDefault, value?, kept, List.getElem?_map, hzip, Option.map_some, Option.join_some]
  cases keeps name with
  | true => exact hread
  | false => rfl

/-- A record reads back from its members. -/
lemma record?_ofMembers (names : List String) (values : List Json) (hnodup : names.Nodup)
    (hlength : values.length = names.length) :
    (ofMembers (names.zip values)).record? names = some ⟨false, values.map some⟩ := by
  have hperm : (named names values).Perm
      ((named names values).filter (·.1.any fun _ => true) ++ []) := by
    rw [List.append_nil, List.filter_eq_self.mpr]
    intro m hm
    obtain ⟨name, -, value, -, rfl⟩ := exists_of_mem_named hm
    rfl
  have hkept : kept (fun _ => true) names values = values.map some := by
    calc kept (fun _ => true) names values
        = ((names.zip values).map Prod.snd).map some := by rw [List.map_map]; rfl
      _ = values.map some := by rw [List.map_snd_zip (Nat.le_of_eq hlength)]
  rw [← hkept]
  exact record?_of_perm _ hnodup hlength (List.forall_mem_nil _) hperm

lemma Writable.ofMembers {members : List (String × Json)} (h : ∀ m ∈ members, m.2.Writable) :
    (ofMembers members).Writable := by
  refine .object (fun m hm => ?_) fun m hm => ?_
  · obtain ⟨⟨name, value⟩, -, rfl⟩ := List.mem_map.mp hm
    rfl
  · obtain ⟨⟨name, value⟩, hmem, rfl⟩ := List.mem_map.mp hm
    exact h (name, value) hmem

lemma Writable.zip (h : ∀ value ∈ values, value.Writable) :
    (Json.ofMembers (names.zip values)).Writable :=
  .ofMembers fun _ hm => h _ (List.of_mem_zip hm).2

end Records

end Scanout.Json
