import ChunkScope.Proofs.Json.Values

/-!
# Values that were read

What a reading gives is bounded by what it could take from the text: an integer has 64 bits, the
members of an object are in ascending order, and no more containers nest than may be open. So a
value that was read without a float in it is one that its text keeps.

Loops go through an invariant: `forall_of_items` and `invariant_of_members` carry it through the
items of an array and the members of an object, and `invariant_of_record` through a record.
-/

namespace ChunkScope.Json

/-- A value without floats. -/
inductive Floatless : Json → Prop where
  | null : Floatless .null
  | bool (b : Bool) : Floatless (.bool b)
  | int (n : Int) : Floatless (.int n)
  | string (s : String) : Floatless (.string s)
  | array {items : List Json} (hitems : ∀ item ∈ items, Floatless item) : Floatless (.array items)
  | object {members : List (String × Json)} (hmembers : ∀ m ∈ members, Floatless m.2) :
    Floatless (.object members)

/-! ## Numbers -/

namespace Number

/-- An integer that was read fits into 64 bits, signed or not. -/
theorem bounds_of_integer? {written : Written} {n : Int} (h : integer? written = some n) :
    -0x8000000000000000 ≤ n ∧ n < 0x10000000000000000 := by
  simp only [integer?, UInt64.size] at h
  split at h
  · cases h
  · split at h
    · split at h
      · cases h
        omega
      · cases h
    · split at h
      · cases h
        omega
      · cases h

/-- A number that was read is an integer of 64 bits or a float. -/
theorem cases_of_number {cs rest : List Char} {v : Json} (h : number cs = .ok (v, rest)) :
    (∃ n, v = .int n ∧ -0x8000000000000000 ≤ n ∧ n < 0x10000000000000000) ∨
      ∃ bits, v = .float bits := by
  have hunsigned : ∀ negative cs, unsigned negative cs = .ok (v, rest) →
      (∃ n, v = .int n ∧ -0x8000000000000000 ≤ n ∧ n < 0x10000000000000000) ∨
        ∃ bits, v = .float bits := by
    intro negative cs h
    rw [unsigned] at h
    split at h
    · cases h
    · next number _ _ =>
      split at h
      · next value hvalue =>
        cases h
        rw [value?] at hvalue
        split at hvalue
        · next n hn =>
          cases hvalue
          exact .inl ⟨n, rfl, bounds_of_integer? hn⟩
        · obtain ⟨x, -, rfl⟩ := Option.map_eq_some_iff.mp hvalue
          exact .inr ⟨_, rfl⟩
      · cases h
  rw [number.eq_def] at h
  split at h
  · exact hunsigned true _ h
  · exact hunsigned false _ h

end Number

namespace Reader

variable {α σ : Type}

/-! ## Loops -/

/-- What holds of every item that is read holds of all items of an array. -/
theorem forall_of_items {P : α → Prop} {item : List Char → Scan α}
    (hitem : ∀ cs a rest, item cs = .ok (a, rest) → P a) {fuel : Nat} {seen as : List α}
    {cs rest : List Char} (hseen : ∀ a ∈ seen, P a)
    (h : items item fuel seen cs = .ok (as, rest)) : ∀ a ∈ as, P a := by
  induction fuel generalizing seen cs with
  | zero => cases h
  | succ fuel ih =>
    rw [items] at h
    split at h
    · cases h
    · cases h
      intro a ha
      exact hseen a (List.mem_reverse.mp ha)
    · split at h
      · cases h
      · next a _ ha =>
        exact ih (List.forall_mem_cons.mpr ⟨hitem _ _ _ ha, hseen⟩) h

/-- The contents of an array were read when its end was. -/
theorem ok_of_closing {contents : Scan α} {a : α} {rest : List Char}
    (h : closing contents = .ok (a, rest)) : ∃ rest', contents = .ok (a, rest') := by
  rcases contents with fault | ⟨found, rest'⟩
  · cases h
  · rw [closing.eq_def] at h
    dsimp only at h
    cases hclose : closeArray rest' with
    | error fault =>
      rw [hclose] at h
      cases h
    | ok rest =>
      rw [hclose] at h
      cases h
      exact ⟨rest', rfl⟩

/-- What every member keeps holds of the state behind all members of an object. -/
theorem invariant_of_members {P : σ → Prop} {member : σ → String → List Char → Scan σ}
    (hmember : ∀ s name cs s' rest, P s → member s name cs = .ok (s', rest) → P s')
    {fuel : Nat} {first : Bool} {s s' : σ} {cs rest : List Char} (hs : P s)
    (h : members member fuel first s cs = .ok (s', rest)) : P s' := by
  induction fuel generalizing first s cs with
  | zero => cases h
  | succ fuel ih =>
    rw [members] at h
    split at h
    · cases h
    · cases h
      exact hs
    · split at h
      · cases h
      · split at h
        · cases h
        · next hstep => exact ih (hmember _ _ _ _ _ hs hstep) h

/-! ## Any value -/

/-- What was made of a value was made of one that was read. -/
theorem ok_of_map {β : Type} {x : Except Fault α} {f : α → β} {b : β} (h : x.map f = .ok b) :
    ∃ a, x = .ok a ∧ f a = b := by
  cases x with
  | error fault => cases h
  | ok a => exact ⟨a, rfl, Except.ok.inj h⟩

/-- The value of a member was read behind the colon. -/
theorem ok_of_memberValue {scan : List Char → Scan α} {cs rest : List Char} {a : α}
    (h : memberValue scan cs = .ok (a, rest)) : ∃ cs', scan cs' = .ok (a, rest) := by
  rw [memberValue] at h
  split at h
  · cases h
  · exact ⟨_, h⟩

/-- Members that were found in ascending order stay so, and what holds of every value holds of
theirs. -/
private theorem invariant_of_insert {P : Json → Prop} {found : List (String × Json)} {name : String}
    {v : Json} (hfound : (found.Pairwise fun a b => a.1 < b.1) ∧ ∀ m ∈ found, P m.2) (hv : P v) :
    ((Keyed.insert name v found).Pairwise fun a b => a.1 < b.1) ∧
      ∀ m ∈ Keyed.insert name v found, P m.2 := by
  refine ⟨Keyed.pairwise_insert String.lt_trans ?_ name v hfound.1, ?_⟩
  · intro k l hnot hne
    rcases Std.lt_trichotomy k l with h | h | h
    · exact absurd h hnot
    · exact absurd h hne
    · exact h
  · intro m hm
    rcases Keyed.eq_or_mem_of_mem_insert hm with rfl | hm
    · exact hv
    · exact hfound.2 m hm

section Containers

variable {depth fuel : Nat} {cs rest : List Char}
  (hvalue : ∀ cs v rest, value depth cs = .ok (v, rest) → Floatless v → Kept depth v)

include hvalue in
/-- An array that was read without a float in it is kept. -/
private theorem kept_array_of_items {vs : List Json}
    (h : items (value depth) fuel [] cs = .ok (vs, rest)) (hfloatless : Floatless (.array vs)) :
    Kept (depth + 1) (.array vs) := by
  have hkept : ∀ v ∈ vs, Floatless v → Kept depth v :=
    forall_of_items hvalue (List.forall_mem_nil _) h
  cases hfloatless with
  | array hall => exact .array fun v hv => hkept v hv (hall v hv)

include hvalue in
/-- An object that was read without a float in it is kept. -/
private theorem kept_object_of_members {member : List (String × Json) → String → List Char →
      Scan (List (String × Json))}
    (hmember : ∀ found name cs found' rest, member found name cs = .ok (found', rest) →
      ∃ v cs', value depth cs' = .ok (v, rest) ∧ found' = Keyed.insert name v found)
    {found : List (String × Json)} (h : members member fuel true [] cs = .ok (found, rest))
    (hfloatless : Floatless (.object found)) : Kept (depth + 1) (.object found) := by
  have hfound : (found.Pairwise fun a b => a.1 < b.1) ∧
      ∀ m ∈ found, Floatless m.2 → Kept depth m.2 := by
    refine invariant_of_members (P := fun found => (found.Pairwise fun a b => a.1 < b.1) ∧
      ∀ m ∈ found, Floatless m.2 → Kept depth m.2) ?_ ⟨.nil, List.forall_mem_nil _⟩ h
    intro before name cs behind rest hbefore hstep
    obtain ⟨v, cs', hv, rfl⟩ := hmember before name cs behind rest hstep
    exact invariant_of_insert (P := fun v => Floatless v → Kept depth v) hbefore
      (hvalue cs' v rest hv)
  cases hfloatless with
  | object hall => exact .object hfound.1 fun m hm => hfound.2 m hm (hall m hm)

end Containers

/-- A value that was read is kept by its text, unless there is a float in it. -/
theorem kept_of_value {depth : Nat} {cs rest : List Char} {v : Json}
    (h : value depth cs = .ok (v, rest)) (hfloatless : Floatless v) : Kept depth v := by
  induction depth using Nat.strongRecOn generalizing cs rest v with
  | ind depth ih =>
    rw [value.eq_def] at h
    split at h
    · cases h
    · obtain ⟨_, -, heq⟩ := ok_of_map h
      cases heq
      exact .null depth
    · obtain ⟨_, -, heq⟩ := ok_of_map h
      cases heq
      exact .bool depth true
    · obtain ⟨_, -, heq⟩ := ok_of_map h
      cases heq
      exact .bool depth false
    · obtain ⟨⟨s, _⟩, -, heq⟩ := ok_of_map h
      cases heq
      exact .string depth s
    · split at h
      · cases h
      · next depth =>
        obtain ⟨⟨vs, _⟩, hclosing, heq⟩ := ok_of_map h
        cases heq
        obtain ⟨_, hitems⟩ := ok_of_closing hclosing
        exact kept_array_of_items (fun _ _ _ => ih depth (Nat.lt_succ_self depth)) hitems
          hfloatless
    · split at h
      · cases h
      · next depth =>
        obtain ⟨⟨found, _⟩, hmembers, heq⟩ := ok_of_map h
        cases heq
        refine kept_object_of_members (fun _ _ _ => ih depth (Nat.lt_succ_self depth)) ?_ hmembers
          hfloatless
        intro before name cs behind rest hmember
        split at hmember
        · cases hmember
        · next v _ hv =>
          cases hmember
          obtain ⟨cs', hv⟩ := ok_of_memberValue hv
          exact ⟨v, cs', hv, rfl⟩
    · split at h
      · rcases Number.cases_of_number h with ⟨n, rfl, hlo, hhi⟩ | ⟨bits, rfl⟩
        · exact .int depth hlo hhi
        · cases hfloatless
      · cases h

/-! ## Records -/

private theorem bind_mismatch_ne_ok {β : Type} (x : Except Fault β) (a : α) (rest : List Char) :
    (x.bind fun _ => .error .mismatch) ≠ (.ok (a, rest) : Scan α) := by
  cases x <;> nofun

/-- What is refused is not read. -/
theorem refuse_ne_ok (cs : List Char) (a : α) (rest : List Char) : refuse cs ≠ .ok (a, rest) := by
  rw [refuse.eq_def]
  split
  case h_1 => nofun
  case h_6 =>
    split
    · nofun
    · split
      · exact bind_mismatch_ne_ok _ a rest
      · nofun
  all_goals exact bind_mismatch_ne_ok _ a rest

/-- What the fields of a record keep. -/
def Keeps (P : α → Prop) (depth : Nat) (fields : List (RecordField Reader α)) : Prop :=
  ∀ field ∈ fields, ∀ cs set rest, field.update depth cs = .ok (set, rest) → ∀ a, P a → P (set a)

theorem Keeps.nil {P : α → Prop} {depth : Nat} : Keeps P depth [] := nofun

/-- A required field keeps what every value that is read for it keeps. -/
theorem Keeps.required {β : Type} {P : α → Prop} {depth : Nat} {name : String} {reader : Reader β}
    {set : β → α → α} {fields : List (RecordField Reader α)}
    (hset : ∀ cs b rest, reader depth cs = .ok (b, rest) → ∀ a, P a → P (set b a))
    (hfields : Keeps P depth fields) : Keeps P depth (.required name reader set :: fields) := by
  refine List.forall_mem_cons.mpr ⟨?_, hfields⟩
  intro cs update rest hupdate
  change Reader.map set reader depth cs = _ at hupdate
  rw [Reader.map] at hupdate
  split at hupdate
  · cases hupdate
  · next b _ hread =>
    cases hupdate
    exact hset _ _ _ hread

/-- A member that is taken keeps what every field keeps. -/
private theorem invariant_of_takeMember {P : α → Prop} {fields : List (RecordField Reader α)}
    {depth : Nat} (hfields : Keeps P depth fields) {draft draft' : Draft α} {name : String}
    {cs rest : List Char} (hdraft : P draft.1)
    (h : takeMember fields depth draft name cs = .ok (draft', rest)) : P draft'.1 := by
  rw [takeMember] at h
  split at h
  · split at h
    · cases h
    · obtain ⟨_, -, heq⟩ := ok_of_map h
      cases heq
      exact hdraft
  · next field hfield =>
    split at h
    · cases h
    · split at h
      · cases h
      · next hvalue =>
        cases h
        obtain ⟨_, hupdate⟩ := ok_of_memberValue hvalue
        exact hfields field (List.mem_of_find?_eq_some hfield) _ _ _ hupdate _ hdraft

/-- So does a record that is written as an array. -/
private theorem invariant_of_ofItems {P : α → Prop} {fields : List (RecordField Reader α)}
    {depth : Nat} (hfields : Keeps P depth fields) {first : Bool} {start a : α}
    {cs rest : List Char} (hstart : P start)
    (h : ofItems fields first start depth cs = .ok (a, rest)) : P a := by
  induction fields generalizing first start cs with
  | nil =>
    cases h
    exact hstart
  | cons field fields ih =>
    rw [ofItems] at h
    split at h
    · cases h
    · split at h
      · cases h
      · cases h
        exact hstart
    · split at h
      · cases h
      · next hupdate =>
        obtain ⟨hfield, hrest⟩ := List.forall_mem_cons.mp hfields
        exact ih hrest (hfield _ _ _ hupdate _ hstart) h

/-- What the fields of a record keep holds of a record that was read, if it holds of the record at
the start. -/
theorem invariant_of_record {P : α → Prop} {start a : α} {fields : List (RecordField Reader α)}
    {depth : Nat} (hfields : Keeps P depth fields) (hstart : P start) {cs rest : List Char}
    (h : record start fields (depth + 1) cs = .ok (a, rest)) : P a := by
  rw [record.eq_def] at h
  split at h
  · cases h
  · cases h
  · next heq =>
    cases heq
    obtain ⟨_, hitems⟩ := ok_of_closing h
    exact invariant_of_ofItems hfields hstart hitems
  · next heq =>
    cases heq
    rw [ofObject] at h
    split at h
    · cases h
    · next hmembers =>
      have hdraft := invariant_of_members (P := fun draft : Draft α => P draft.1)
        (fun _ _ _ _ _ hs hmember => invariant_of_takeMember hfields hs hmember) hstart hmembers
      split at h
      · cases h
        exact hdraft
      · cases h
  · exact absurd h (refuse_ne_ok _ a rest)

/-- What is read from a whole text is read from its front. -/
theorem ok_of_run {reader : Reader α} {source : String} {a : α} (h : reader.run source = .ok a) :
    ∃ rest, reader maxDepth source.toList = .ok (a, rest) := by
  rw [run] at h
  split at h
  · cases h
  · next hread =>
    split at h
    · cases h
      exact ⟨_, hread⟩
    · cases h

end Reader

end ChunkScope.Json
