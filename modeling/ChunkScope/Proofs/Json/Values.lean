import ChunkScope.Proofs.Json.Atoms
import ChunkScope.Proofs.Keyed
import ChunkScope.Proofs.Text.Encodings

/-!
# Values that are read back

What the printer writes without blanks is read back by a reading of the same form, in front of
whatever may follow a value. Arrays and objects are read item by item; an object is put together
from its members in their order, so it comes out as it was only if they stand in ascending order.
-/

namespace ChunkScope.Json

namespace Reader

variable {α σ : Type}

/-- A scan takes a written value for `a`, whatever may follow. -/
def Reads (scan : List Char → Scan α) (v : Json) (a : α) : Prop :=
  ∀ rest, Follows rest → scan (v.compactChars ++ rest) = .ok (a, rest)

/-! ## Atoms -/

theorem compactChars_string (s : String) (rest : List Char) :
    (Json.string s).compactChars ++ rest = '"' :: (s.toList.flatMap escape ++ '"' :: rest) := by
  rw [compactChars, atomChars, stringChars]
  · simp
  all_goals nofun

theorem compactChars_int (n : Int) :
    (Json.int n).compactChars = (Numeral.signedDecimal n).toList := by
  rw [compactChars, atomChars]
  all_goals nofun

/-- An integer begins with a minus sign or a digit. -/
theorem signedDecimal_eq_cons (n : Int) :
    ∃ c cs, (Numeral.signedDecimal n).toList = c :: cs ∧
      (c = '-' ∨ ∃ d < 10, c = Digit.lower d) := by
  cases n with
  | ofNat n =>
    obtain ⟨d, hd, cs, hcs⟩ := Numeral.decimal_eq_cons n
    exact ⟨Digit.lower d, cs, hcs, .inr ⟨d, hd, rfl⟩⟩
  | negSucc n =>
    refine ⟨'-', (Numeral.decimal (n + 1)).toList, ?_, .inl rfl⟩
    rw [Numeral.signedDecimal, String.toList_append]
    rfl

/-- Nothing is skipped in front of a character that is no blank. -/
theorem skipBlanks_cons {c : Char} (h : Scan.isBlank c = false) (cs : List Char) :
    Scan.skipBlanks (c :: cs) = c :: cs := by
  rw [Scan.skipBlanks, List.dropWhile_cons_of_neg (by simp [h])]

/-- A text is read back from its string. -/
theorem reads_text (depth : Nat) (s : String) : Reads (text depth) (.string s) s := by
  intro rest _
  rw [compactChars_string]
  exact Scan.string_stringChars s rest

/-- A natural number is read back when it is below the bound and 64 bits hold it. -/
theorem reads_natural (depth : Nat) {bound n : Nat} (hbound : n < bound) (hn : n < UInt64.size) :
    Reads (natural bound depth) (.int n) n := by
  intro rest h
  obtain ⟨d, hd, cs, hcs⟩ := Numeral.decimal_eq_cons n
  have hnumber := Number.number_signedDecimal (n := n) (by omega) (Int.ofNat_lt.mpr hn) h
  have hdecimal := (Digit.isDecimal_lower hd).1
  have hblank : ∀ d < 10, Scan.isBlank (Digit.lower d) = false := by decide
  rw [compactChars_int]
  change Number.number ((Numeral.decimal n).toList ++ rest) = _ at hnumber
  change natural bound depth ((Numeral.decimal n).toList ++ rest) = _
  rw [hcs, List.cons_append] at hnumber ⊢
  rw [natural, skipBlanks_cons (hblank d hd)]
  dsimp only
  rw [if_pos (.inr hdecimal), hnumber]
  show (if n < bound then Except.ok (n, rest) else _) = _
  rw [if_pos hbound]

/-! ## Arrays -/

/-- A text that begins a value: no blank comes first, and no bracket that closes an array. -/
def Opens (cs : List Char) : Prop :=
  ∃ c rest, cs = c :: rest ∧ Scan.isBlank c = false ∧ c ≠ ']'

/-- Every value but a float is known to begin as a value does. -/
theorem opens_compactChars {v : Json} (h : ∀ bits, v ≠ .float bits) : Opens v.compactChars := by
  cases v with
  | null => exact ⟨'n', _, rfl, rfl, by decide⟩
  | bool b => cases b <;> exact ⟨_, _, rfl, rfl, by decide⟩
  | int n =>
    obtain ⟨c, cs, hcs, hc⟩ := signedDecimal_eq_cons n
    refine ⟨c, cs, by rw [compactChars_int, hcs], ?_⟩
    have hdigit : ∀ d < 10, Scan.isBlank (Digit.lower d) = false ∧ Digit.lower d ≠ ']' := by
      decide
    rcases hc with rfl | ⟨d, hd, rfl⟩
    · exact ⟨rfl, by decide⟩
    · exact hdigit d hd
  | float bits => exact absurd rfl (h bits)
  | string s => exact ⟨'"', s.toList.flatMap escape ++ ['"'], rfl, rfl, by decide⟩
  | array items => exact ⟨'[', compactItems items, rfl, rfl, by decide⟩
  | object members => exact ⟨'\x7b', compactMembers members, rfl, rfl, by decide⟩

private theorem nextItem_first {cs : List Char} (h : Opens cs) (rest : List Char) :
    nextItem true (cs ++ rest) = .ok (true, cs ++ rest) := by
  obtain ⟨c, cs, rfl, hblank, hclose⟩ := h
  rw [List.cons_append, nextItem, skipBlanks_cons hblank]
  simp

private theorem nextItem_more {cs : List Char} (h : Opens cs) (rest : List Char) :
    nextItem false (',' :: (cs ++ rest)) = .ok (true, cs ++ rest) := by
  obtain ⟨c, cs, rfl, hblank, hclose⟩ := h
  rw [nextItem, skipBlanks_cons rfl]
  simp [skipBlanks_cons hblank, hclose]

/-- Behind an item there is a comma or the end of the array. -/
private theorem follows_compactMoreItems (items : List Json) (rest : List Char) :
    Follows (compactMoreItems items ++ rest) := by
  cases items with
  | nil => exact follows_cons (.inr (.inl rfl)) rest
  | cons item items => exact follows_cons (.inl rfl) _

private theorem length_lt_compactMoreItems (items : List Json) :
    items.length < (compactMoreItems items).length := by
  induction items with
  | nil => exact Nat.zero_lt_one
  | cons item items ih =>
    rw [compactMoreItems, List.length_cons, List.length_cons, List.length_append]
    omega

section Arrays

variable {item : List Char → Scan α} (write : α → Json)

/-- The items of an array are read back behind those that have been read. -/
private theorem items_compactMoreItems {as : List α} (hreads : ∀ a ∈ as, Reads item (write a) a)
    (hopens : ∀ a ∈ as, Opens (write a).compactChars) {fuel : Nat} (hfuel : as.length < fuel)
    {seen : List α} (hseen : seen ≠ []) (rest : List Char) :
    items item fuel seen (compactMoreItems (as.map write) ++ rest) =
      .ok (seen.reverse ++ as, ']' :: rest) := by
  have hempty : seen.isEmpty = false := by simpa using hseen
  induction as generalizing fuel seen with
  | nil =>
    obtain ⟨fuel, rfl⟩ := Nat.exists_eq_add_one_of_ne_zero (Nat.ne_zero_of_lt hfuel)
    rw [items, hempty, List.append_nil]
    rfl
  | cons a as ih =>
    rw [List.length_cons] at hfuel
    obtain ⟨fuel, rfl⟩ := Nat.exists_eq_add_one_of_ne_zero (Nat.ne_zero_of_lt hfuel)
    have hitem := hreads a (by simp) (compactMoreItems (as.map write) ++ rest)
      (follows_compactMoreItems _ _)
    rw [List.map_cons, compactMoreItems, List.cons_append, List.append_assoc, items, hempty,
      nextItem_more (hopens a (by simp))]
    dsimp only
    rw [hitem]
    dsimp only
    rw [ih (fun b hb => hreads b (List.mem_cons_of_mem _ hb))
      (fun b hb => hopens b (List.mem_cons_of_mem _ hb)) (by omega) (List.cons_ne_nil a seen) rfl,
      List.reverse_cons, List.append_assoc]
    rfl

/-- The items of an array are read back, up to the bracket that closes it. -/
theorem items_compactItems {as : List α} (hreads : ∀ a ∈ as, Reads item (write a) a)
    (hopens : ∀ a ∈ as, Opens (write a).compactChars) {fuel : Nat} (hfuel : as.length < fuel)
    (rest : List Char) :
    items item fuel [] (compactItems (as.map write) ++ rest) = .ok (as, ']' :: rest) := by
  obtain ⟨fuel, rfl⟩ := Nat.exists_eq_add_one_of_ne_zero (Nat.ne_zero_of_lt hfuel)
  cases as with
  | nil => rfl
  | cons a as =>
    rw [List.length_cons] at hfuel
    have hitem := hreads a (by simp) (compactMoreItems (as.map write) ++ rest)
      (follows_compactMoreItems _ _)
    rw [List.map_cons, compactItems, List.append_assoc, items,
      show ([] : List α).isEmpty = true from rfl, nextItem_first (hopens a (by simp))]
    dsimp only
    rw [hitem]
    dsimp only
    rw [items_compactMoreItems write (fun b hb => hreads b (List.mem_cons_of_mem _ hb))
      (fun b hb => hopens b (List.mem_cons_of_mem _ hb)) (by omega) (List.cons_ne_nil a [])]
    rfl

private theorem length_lt_compactItems (items : List Json) :
    items.length < (compactItems items).length + 1 := by
  cases items with
  | nil => decide
  | cons item items =>
    have hmore := length_lt_compactMoreItems items
    rw [compactItems, List.length_cons, List.length_append]
    omega

/-- An array is read back when its items are. -/
theorem closing_items_compactItems {as : List α} (hreads : ∀ a ∈ as, Reads item (write a) a)
    (hopens : ∀ a ∈ as, Opens (write a).compactChars) (rest : List Char) :
    closing (items item ((compactItems (as.map write) ++ rest).length + 1) []
      (compactItems (as.map write) ++ rest)) = .ok (as, rest) := by
  have hlength := length_lt_compactItems (as.map write)
  rw [List.length_map] at hlength
  rw [items_compactItems write hreads hopens (by rw [List.length_append]; omega)]
  rfl

end Arrays

/-! ## Objects -/

/-- A state goes through the members of an object, each of which is read and changes it. -/
inductive Takes (member : σ → String → List Char → Scan σ) :
    σ → List (String × Json) → σ → Prop where
  | nil (s : σ) : Takes member s [] s
  | cons {s s' s'' : σ} {name : String} {v : Json} {rest : List (String × Json)}
    (head : ∀ cs, Follows cs → member s name (':' :: (v.compactChars ++ cs)) = .ok (s', cs))
    (tail : Takes member s' rest s'') : Takes member s ((name, v) :: rest) s''

/-- Behind a member there is a comma or the end of the object. -/
private theorem follows_compactMoreMembers (ms : List (String × Json)) (rest : List Char) :
    Follows (compactMoreMembers ms ++ rest) := by
  cases ms with
  | nil => exact follows_cons (.inr (.inr rfl)) rest
  | cons m ms => exact follows_cons (.inl rfl) _

private theorem length_lt_compactMoreMembers (ms : List (String × Json)) :
    ms.length < (compactMoreMembers ms).length := by
  induction ms with
  | nil => exact Nat.zero_lt_one
  | cons m ms ih =>
    obtain ⟨name, v⟩ := m
    rw [compactMoreMembers, List.length_cons, List.length_cons, List.length_append,
      List.length_cons, List.length_append]
    omega

private theorem length_lt_compactMembers (ms : List (String × Json)) :
    ms.length < (compactMembers ms).length + 1 := by
  cases ms with
  | nil => decide
  | cons m ms =>
    obtain ⟨name, v⟩ := m
    have hmore := length_lt_compactMoreMembers ms
    rw [compactMembers, List.length_cons, List.length_append, List.length_cons,
      List.length_append]
    omega

private theorem stringChars_append (s : String) (rest : List Char) :
    stringChars s ++ rest = '"' :: (s.toList.flatMap escape ++ '"' :: rest) := by
  simp [stringChars]

section Objects

variable {member : σ → String → List Char → Scan σ}

/-- The members of an object are taken in their order behind the first one. -/
private theorem members_compactMoreMembers {s s' : σ} {ms : List (String × Json)}
    (h : Takes member s ms s') {fuel : Nat} (hfuel : ms.length < fuel) (rest : List Char) :
    members member fuel false s (compactMoreMembers ms ++ rest) = .ok (s', rest) := by
  induction h generalizing fuel with
  | nil s =>
    obtain ⟨fuel, rfl⟩ := Nat.exists_eq_add_one_of_ne_zero (Nat.ne_zero_of_lt hfuel)
    rfl
  | @cons s s' s'' name v ms head tail ih =>
    rw [List.length_cons] at hfuel
    obtain ⟨fuel, rfl⟩ := Nat.exists_eq_add_one_of_ne_zero (Nat.ne_zero_of_lt hfuel)
    have hnext : ∀ cs, nextMember false (',' :: '"' :: cs) = .ok (true, cs) := fun _ => rfl
    rw [compactMoreMembers, List.cons_append, List.append_assoc, stringChars_append,
      List.cons_append, List.append_assoc, members, hnext]
    dsimp only
    rw [Scan.string_stringChars]
    dsimp only
    rw [head _ (follows_compactMoreMembers _ _)]
    exact ih (by omega)

/-- The members of an object are read back, with the brace that closes it. -/
theorem members_compactMembers {s s' : σ} {ms : List (String × Json)}
    (h : Takes member s ms s') {fuel : Nat} (hfuel : ms.length < fuel) (rest : List Char) :
    members member fuel true s (compactMembers ms ++ rest) = .ok (s', rest) := by
  obtain ⟨fuel, rfl⟩ := Nat.exists_eq_add_one_of_ne_zero (Nat.ne_zero_of_lt hfuel)
  cases h with
  | nil => rfl
  | @cons s s' s'' name v ms head tail =>
    rw [List.length_cons] at hfuel
    have hnext : ∀ cs, nextMember true ('"' :: cs) = .ok (true, cs) := fun _ => rfl
    rw [compactMembers, List.append_assoc, stringChars_append, List.cons_append,
      List.append_assoc, members, hnext]
    dsimp only
    rw [Scan.string_stringChars]
    dsimp only
    rw [head _ (follows_compactMoreMembers _ _)]
    exact members_compactMoreMembers tail (by omega) rest

/-- The members of an object are read back with the fuel that its text gives. -/
theorem members_length_compactMembers {s s' : σ} {ms : List (String × Json)}
    (h : Takes member s ms s') (rest : List Char) :
    members member ((compactMembers ms ++ rest).length + 1) true s (compactMembers ms ++ rest) =
      .ok (s', rest) := by
  have hlength := length_lt_compactMembers ms
  exact members_compactMembers h (by rw [List.length_append]; omega) rest

end Objects

/-! ## Any value -/

/-- A value that its text keeps: no float, integers that 64 bits hold, and the members of objects in
ascending order; it fits under a number of open containers. -/
inductive Kept : Nat → Json → Prop where
  | null (depth : Nat) : Kept depth .null
  | bool (depth : Nat) (b : Bool) : Kept depth (.bool b)
  | int (depth : Nat) {n : Int} (hlo : -0x8000000000000000 ≤ n)
    (hhi : n < 0x10000000000000000) : Kept depth (.int n)
  | string (depth : Nat) (s : String) : Kept depth (.string s)
  | array {depth : Nat} {items : List Json} (hitems : ∀ item ∈ items, Kept depth item) :
    Kept (depth + 1) (.array items)
  | object {depth : Nat} {members : List (String × Json)}
    (hsorted : members.Pairwise fun a b => a.1 < b.1)
    (hmembers : ∀ m ∈ members, Kept depth m.2) : Kept (depth + 1) (.object members)

/-- A value that is kept opens with no blank and no bracket that closes. -/
theorem Kept.opens {depth : Nat} {v : Json} (h : Kept depth v) : Opens v.compactChars := by
  refine opens_compactChars ?_
  rintro bits rfl
  cases h

/-- One member of an object of any values, put among those found before. -/
private def findMember (depth : Nat) (found : List (String × Json)) (name : String)
    (cs : List Char) : Scan (List (String × Json)) :=
  match memberValue (value depth) cs with
  | .error fault => .error fault
  | .ok (v, rest) => .ok (Keyed.insert name v found, rest)

private theorem value_array (depth : Nat) (rest : List Char) :
    value (depth + 1) ('[' :: rest) =
      (closing (items (value depth) (rest.length + 1) [] rest)).map fun (vs, rest) =>
        (.array vs, rest) := by
  rw [value]
  rfl

private theorem value_object (depth : Nat) (rest : List Char) :
    value (depth + 1) ('\x7b' :: rest) =
      (members (findMember depth) (rest.length + 1) true [] rest).map fun (found, rest) =>
        (.object found, rest) := by
  rw [value]
  rfl

/-- Members in ascending order, behind all those found before, are found in their order. -/
private theorem takes_findMember {depth : Nat} {found ms : List (String × Json)}
    (hreads : ∀ m ∈ ms, Reads (value depth) m.2 m.2)
    (hsorted : ms.Pairwise fun a b => a.1 < b.1)
    (hbehind : ∀ entry ∈ found, ∀ m ∈ ms, entry.1 < m.1) :
    Takes (findMember depth) found ms (found ++ ms) := by
  induction ms generalizing found with
  | nil =>
    rw [List.append_nil]
    exact .nil found
  | cons m ms ih =>
    obtain ⟨name, v⟩ := m
    obtain ⟨hfirst, hsorted⟩ := List.pairwise_cons.mp hsorted
    -- each name lies behind those found before, so setting it puts it at the end
    have hinsert : Keyed.insert name v found = found ++ [(name, v)] := by
      refine Keyed.insert_eq_append v ?_
      intro entry hentry
      have hlt := hbehind entry hentry (name, v) (by simp)
      refine ⟨String.lt_asymm hlt, ?_⟩
      intro heq
      rw [heq] at hlt
      exact String.lt_irrefl _ hlt
    rw [show found ++ (name, v) :: ms = found ++ [(name, v)] ++ ms by simp, ← hinsert]
    refine .cons ?_ (ih (fun m hm => hreads m (List.mem_cons_of_mem _ hm)) hsorted ?_)
    · intro cs hcs
      have hvalue := hreads (name, v) (by simp) cs hcs
      show (match value depth (v.compactChars ++ cs) with
        | .error fault => Except.error fault
        | .ok (v, rest) => .ok (Keyed.insert name v found, rest)) = _
      rw [hvalue]
    · intro entry hentry m hm
      rw [hinsert] at hentry
      rcases List.mem_append.mp hentry with h | h
      · exact hbehind entry h m (List.mem_cons_of_mem _ hm)
      · rw [List.mem_singleton.mp h]
        exact hfirst m hm

/-- A digit or a minus sign begins a number. -/
private theorem value_of_digit {depth : Nat} {c : Char} (cs : List Char)
    (h : c = '-' ∨ ∃ d < 10, c = Digit.lower d) :
    value depth (c :: cs) = Number.number (c :: cs) := by
  rcases h with rfl | ⟨d, hd, rfl⟩
  · rw [value]
    rfl
  · -- every digit is a case of its own in the reader
    match d, hd with
    | 0, _ | 1, _ | 2, _ | 3, _ | 4, _ | 5, _ | 6, _ | 7, _ | 8, _ | 9, _ =>
      rw [value]
      rfl

/-- A value that its text keeps is read back. -/
theorem reads_value {depth : Nat} {v : Json} (h : Kept depth v) : Reads (value depth) v v := by
  induction h with
  | null depth =>
    intro rest _
    show value depth ('n' :: 'u' :: 'l' :: 'l' :: rest) = _
    rw [value]
    rfl
  | bool depth b =>
    intro rest _
    cases b with
    | true =>
      show value depth ('t' :: 'r' :: 'u' :: 'e' :: rest) = _
      rw [value]
      rfl
    | false =>
      show value depth ('f' :: 'a' :: 'l' :: 's' :: 'e' :: rest) = _
      rw [value]
      rfl
  | @int depth n hlo hhi =>
    intro rest hrest
    obtain ⟨c, cs, hcs, hc⟩ := signedDecimal_eq_cons n
    have hnumber := Number.number_signedDecimal hlo hhi hrest
    rw [compactChars_int, hcs, List.cons_append] at *
    rw [value_of_digit _ hc, hnumber]
  | string depth s =>
    intro rest _
    have hstring := Scan.string_stringChars s rest
    rw [compactChars_string, value]
    show (Scan.string (s.toList.flatMap escape ++ '"' :: rest)).map _ = _
    rw [hstring]
    rfl
  | @array depth items hitems ih =>
    intro rest _
    -- the items are read with one container less to open, as the derivation has them
    have hclosing := closing_items_compactItems id ih
      (fun item hitem => (hitems item hitem).opens) rest
    rw [List.map_id] at hclosing
    show value (depth + 1) ('[' :: (compactItems items ++ rest)) = _
    rw [value_array, hclosing]
    rfl
  | @object depth ms hsorted hmembers ih =>
    intro rest _
    have htakes : Takes (findMember depth) [] ms ms := takes_findMember ih hsorted nofun
    show value (depth + 1) ('\x7b' :: (compactMembers ms ++ rest)) = _
    rw [value_object, members_length_compactMembers htakes]
    rfl

end Reader

end ChunkScope.Json

/-! ## Records that are read back

A record is read back from the object that was written for it when every member is a field, comes
once and is read back itself, and no required field is missing. -/

namespace ChunkScope.Json.Reader

variable {α β : Type}

/-- What is made of a value that is read back. -/
theorem Reads.map {reader : Reader β} {depth : Nat} {v : Json} {b : β}
    (h : Reads (reader depth) v b) (f : β → α) : Reads (Reader.map f reader depth) v (f b) := by
  intro rest hrest
  rw [Reader.map, h rest hrest]

/-- A word of 64 bits is read back. -/
theorem reads_word64 (depth : Nat) (n : UInt64) :
    Reads ((Decoding.word64 : Reader UInt64) depth) (.int n.toNat) n := by
  have hread := (reads_natural depth n.toNat_lt n.toNat_lt).map UInt64.ofNat
  rw [UInt64.ofNat_toNat] at hread
  exact hread

/-- So is one of 16 bits. -/
theorem reads_word16 (depth : Nat) (n : UInt16) :
    Reads ((Decoding.word16 : Reader UInt16) depth) (.int n.toNat) n := by
  have hlt := n.toNat_lt
  have hread := (reads_natural depth hlt (Nat.lt_trans hlt (by decide))).map UInt16.ofNat
  rw [UInt16.ofNat_toNat] at hread
  exact hread

/-- One of the two words is read back. -/
theorem reads_flag (depth : Nat) (b : Bool) : Reads (flag depth) (.bool b) b := by
  intro rest _
  cases b <;> rfl

/-- A number is read back where `null` could stand as well. -/
theorem reads_optional_int {reader : Reader β} {depth : Nat} {n : Int} {b : β}
    (h : Reads (reader depth) (.int n) b) : Reads (optional reader depth) (.int n) (some b) := by
  intro rest hrest
  have hread := h.map some rest hrest
  obtain ⟨c, cs, hcs, hc⟩ := signedDecimal_eq_cons n
  rw [compactChars_int, hcs, List.cons_append] at hread ⊢
  -- no number begins with a blank or with the letter of `null`
  have hdigits : ∀ d < 10, Scan.isBlank (Digit.lower d) = false ∧ Digit.lower d ≠ 'n' := by decide
  have hstarts : Scan.isBlank c = false ∧ c ≠ 'n' := by
    rcases hc with rfl | ⟨d, hd, rfl⟩
    · decide
    · exact hdigits d hd
  rw [optional, skipBlanks_cons hstarts.1]
  split
  · next heq => exact absurd (List.cons.inj heq).1 hstarts.2
  · exact hread

/-- Where a value may be `null`, this is read as none. -/
theorem reads_optional_null (reader : Reader β) (depth : Nat) :
    Reads (optional reader depth) .null none := by
  intro rest _
  rfl

/-- A list is read back when its items are. -/
theorem reads_list {item : Reader β} {depth : Nat} (write : β → Json) {bs : List β}
    (hreads : ∀ b ∈ bs, Reads (item depth) (write b) b)
    (hopens : ∀ b ∈ bs, Opens (write b).compactChars) :
    Reads (list item (depth + 1)) (.array (bs.map write)) bs := by
  intro rest _
  exact closing_items_compactItems write hreads hopens rest

/-- A value that has a name is read back from its name. -/
theorem reads_choice {named : String → Option β} (depth : Nat) {name : String} {b : β}
    (hname : named name = some b) : Reads (choice named depth) (.string name) b := by
  intro rest _
  have hstring := Scan.string_stringChars name rest
  rw [compactChars_string]
  rw [choice, skipBlanks_cons rfl]
  show filterMap named (fun _ cs => Scan.string cs) depth
    (name.toList.flatMap escape ++ '"' :: rest) = _
  simp only [filterMap, hstring, hname]

/-- A field takes the value of its member, when the record does not have it yet. -/
private theorem takeMember_field {fields : List (RecordField Reader α)}
    {field : RecordField Reader α} {name : String} {reader : Reader β} {set : β → α → α}
    {depth : Nat} {v : Json} {b : β}
    (hfield : (fields.find? fun field => field.name = name) = some field)
    (hupdate : field.update = set <$> reader) (hread : Reads (reader depth) v b)
    {seen : List String} (hseen : name ∉ seen) (record : α) {cs : List Char} (hcs : Follows cs) :
    takeMember fields depth (record, seen) name (':' :: (v.compactChars ++ cs)) =
      .ok ((set b record, name :: seen), cs) := by
  have hvalue : memberValue (field.update depth) (':' :: (v.compactChars ++ cs)) =
      .ok (set b, cs) := by
    rw [hupdate]
    exact hread.map set cs hcs
  rw [takeMember, hfield]
  dsimp only
  rw [if_neg hseen, hvalue]

/-- A required field takes the value of its member, when the record does not have it yet. -/
theorem takeMember_required {fields : List (RecordField Reader α)} {name : String}
    {reader : Reader β} {set : β → α → α} {depth : Nat} {v : Json} {b : β}
    (hfield : (fields.find? fun field => field.name = name) = some (.required name reader set))
    (hread : Reads (reader depth) v b) {seen : List String} (hseen : name ∉ seen) (record : α)
    {cs : List Char} (hcs : Follows cs) :
    takeMember fields depth (record, seen) name (':' :: (v.compactChars ++ cs)) =
      .ok ((set b record, name :: seen), cs) :=
  takeMember_field hfield rfl hread hseen record hcs

/-- So does a field that may be left out. -/
theorem takeMember_optional {fields : List (RecordField Reader α)} {name : String}
    {reader : Reader β} {set : β → α → α} {depth : Nat} {v : Json} {b : β}
    (hfield : (fields.find? fun field => field.name = name) = some (.optional name reader set))
    (hread : Reads (reader depth) v b) {seen : List String} (hseen : name ∉ seen) (record : α)
    {cs : List Char} (hcs : Follows cs) :
    takeMember fields depth (record, seen) name (':' :: (v.compactChars ++ cs)) =
      .ok ((set b record, name :: seen), cs) :=
  takeMember_field hfield rfl hread hseen record hcs

/-- A record is read back from the object of its members. -/
theorem reads_record {start record : α} {fields : List (RecordField Reader α)} {depth : Nat}
    {ms : List (String × Json)} {seen : List String}
    (htakes : Takes (takeMember fields depth) (start, []) ms (record, seen))
    (hall : ∀ field ∈ fields, field.isRequired → field.name ∈ seen) :
    Reads (Reader.record start fields (depth + 1)) (.object ms) record := by
  intro rest _
  have hfields : (fields.all fun field => !field.isRequired || field.name ∈ seen) = true := by
    rw [List.all_eq_true]
    intro field hfield
    cases hrequired : field.isRequired with
    | false => rfl
    | true => simp [hall field hfield hrequired]
  show ofObject start fields depth (compactMembers ms ++ rest) = _
  rw [ofObject, members_length_compactMembers htakes]
  dsimp only
  rw [if_pos hfields]

/-- A whole text that was written for a value is read back. -/
theorem run_compact {reader : Reader α} {v : Json} {a : α} (h : Reads (reader maxDepth) v a) :
    reader.run v.compact = .ok a := by
  have hread := h [] follows_nil
  rw [List.append_nil] at hread
  rw [run, compact, String.toList_ofList, hread]
  rfl

/-- A text that comes as bytes is read as the text. -/
theorem runBytes_encode (reader : Reader α) (text : String) :
    reader.runBytes (Utf8.encode text) = reader.run text := by
  rw [runBytes, Utf8.decodeWith_encode]

end ChunkScope.Json.Reader
