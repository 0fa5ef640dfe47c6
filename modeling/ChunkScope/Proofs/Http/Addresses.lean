import ChunkScope.Http.Url
import ChunkScope.Proofs.Text.Encodings

/-!
# Addresses below a host

The URL of a host and names put below it. A name loses its tabs and ends of lines, and every other
character of it can be read back from the path; but a path has no place for the empty name and for
the names that mean a directory.
-/

namespace ChunkScope.Http.Url

/-! ## Names in a path -/

/-- A name without the characters that do not count in a URL. -/
def stripped (name : String) : String :=
  String.ofList (name.toList.filter fun c => c ≠ '\t' && c ≠ '\n' && c ≠ '\r')

/-- A name that a path has no place for. -/
def IsSpecialName (name : String) : Prop :=
  name = "" ∨ name = "." ∨ name = ".."

instance : DecidablePred IsSpecialName := fun name =>
  inferInstanceAs (Decidable (name = "" ∨ name = "." ∨ name = ".."))

/-- A name that travels in a path as it is. -/
def IsPlainName (name : String) : Prop :=
  ¬ IsSpecialName name ∧ ∀ c ∈ name.toList, c ≠ '\t' ∧ c ≠ '\n' ∧ c ≠ '\r'

instance : DecidablePred IsPlainName := fun name =>
  @instDecidableAnd _ _ inferInstance
    (List.decidableBAll (fun c => c ≠ '\t' ∧ c ≠ '\n' ∧ c ≠ '\r') name.toList)

/-- Nothing is dropped from a name without tabs and line ends. -/
theorem stripped_eq_self_iff {name : String} :
    stripped name = name ↔ ∀ c ∈ name.toList, c ≠ '\t' ∧ c ≠ '\n' ∧ c ≠ '\r' := by
  rw [← String.toList_inj, stripped, String.toList_ofList, List.filter_eq_self]
  simp [and_assoc]

/-- A plain name is none of the dots and loses nothing. -/
theorem isPlainName_iff {name : String} :
    IsPlainName name ↔ ¬ IsSpecialName name ∧ stripped name = name :=
  and_congr_right' stripped_eq_self_iff.symm

/-- A name as it is written below a path. -/
theorem toList_nameText (isSpecial : Bool) (name : String) :
    (nameText isSpecial name).toList =
      Percent.encode (isKept (nameEscapes isSpecial)) (stripped name) := by
  rw [nameText, encode, String.toList_ofList]
  rfl

/-- What is kept of a name is printable and is none of what is escaped. -/
theorem isKept_iff {escapes : List Char} {b : UInt8} :
    isKept escapes b ↔ Percent.isPrintable b ∧ b ≠ 0x20 ∧ Char.ofNat b.toNat ∉ escapes := by
  simp [isKept, and_assoc]

/-- What names keep as it is can be decoded again. -/
theorem keepable_nameEscapes (isSpecial : Bool) :
    Percent.Keepable (isKept (nameEscapes isSpecial)) := by
  intro b hb
  obtain ⟨hprintable, -, hescapes⟩ := isKept_iff.mp hb
  constructor
  · have hbounds : 0x20 ≤ b.toNat ∧ b.toNat < 0x7F := by
      simpa [Percent.isPrintable] using hprintable
    omega
  · rintro rfl
    exact hescapes (by cases isSpecial <;> decide)

/-- A name can be read back from the path, but for what does not count in it. -/
theorem decode?_nameText (isSpecial : Bool) (name : String) :
    Percent.decode? (nameText isSpecial name).toList = some (stripped name) := by
  rw [toList_nameText]
  exact Percent.decode?_encode (keepable_nameEscapes isSpecial) _

/-- What is escaped in a text is not in it as it is written. -/
theorem not_mem_encode {escapes cs : List Char} {c : Char} (hescaped : c ∈ escapes)
    (hpercent : c ≠ '%') (hdigit : ∀ d < 16, c ≠ Digit.upper d) :
    c ∉ (encode escapes cs).toList := by
  rw [encode, String.toList_ofList]
  refine Percent.not_mem_encode ?_ hpercent hdigit
  rintro b hkept rfl
  exact (isKept_iff.mp hkept).2.2 hescaped

/-- No character that ends a name or a path is in a name as it is written. -/
theorem not_mem_nameText {isSpecial : Bool} {name : String} {c : Char}
    (hescaped : c ∈ nameEscapes isSpecial) (hpercent : c ≠ '%')
    (hdigit : ∀ d < 16, c ≠ Digit.upper d) : c ∉ (nameText isSpecial name).toList :=
  not_mem_encode hescaped hpercent hdigit

/-- A name of characters that stand for themselves is written as it is. -/
theorem nameText_eq_self {isSpecial : Bool} {name : String}
    (h : ∀ c ∈ name.toList, c.toNat < 128 ∧ isKept (nameEscapes isSpecial) (Utf8.byte c)) :
    nameText isSpecial name = name := by
  have hstripped : stripped name = name := by
    rw [stripped_eq_self_iff]
    intro c hc
    -- what does not count in a URL is not kept either
    have hkept := (h c hc).2
    refine ⟨?_, ?_, ?_⟩
    all_goals
      rintro rfl
      exact absurd hkept (by cases isSpecial <;> decide)
  have hself := Percent.encode_eq_self h
  rw [String.ofList_toList] at hself
  rw [← String.toList_inj, toList_nameText, hstripped, hself]

/-- Two names are written alike when what is left of them is the same. -/
private theorem nameText_eq_of_stripped_eq {isSpecial : Bool} {name : String} {text : String}
    (htext : nameText isSpecial text = text) (hstripped : stripped text = text) :
    nameText isSpecial name = text ↔ stripped name = text := by
  constructor
  · intro h
    have hdecode := decode?_nameText isSpecial name
    rw [h, ← htext, decode?_nameText, hstripped] at hdecode
    exact (Option.some.inj hdecode).symm
  · intro h
    have hsame : nameText isSpecial name = nameText isSpecial text := by
      rw [← String.toList_inj, toList_nameText, toList_nameText, h, hstripped]
    exact hsame.trans htext

/-- Putting a name below a path: the names that mean a directory add nothing, those that turn into
one when they are stripped are resolved, and any other is put at the end. -/
theorem push_eq (isSpecial : Bool) {names : List String} (hnames : names ≠ [""]) (name : String) :
    push isSpecial names name =
      if name = "." ∨ name = ".." then names
      else if stripped name = ".." then names.dropLast ++ [""]
      else if stripped name = "." then names ++ [""]
      else names ++ [nameText isSpecial name] := by
  have hdouble : nameText isSpecial name = ".." ↔ stripped name = ".." :=
    nameText_eq_of_stripped_eq (by cases isSpecial <;> rfl) rfl
  have hsingle : nameText isSpecial name = "." ↔ stripped name = "." :=
    nameText_eq_of_stripped_eq (by cases isSpecial <;> rfl) rfl
  simp only [push, if_neg hnames, hdouble, hsingle]

/-- A name that is written as it is and means no directory is put at the end; an empty name that
stands alone makes way for it. -/
theorem push_of_nameText_eq {isSpecial : Bool} {name : String} (names : List String)
    (htext : nameText isSpecial name = name) (hsingle : name ≠ ".") (hdouble : name ≠ "..") :
    push isSpecial names name = (if names = [""] then [] else names) ++ [name] := by
  simp only [push, htext, hsingle, hdouble, or_self, if_false]

/-- A name that is written as it is goes behind the others, unless it is dots. -/
theorem push_eq_append {isSpecial : Bool} {names : List String} {name : String}
    (hnames : names ≠ [""]) (htext : nameText isSpecial name = name) (hsingle : name ≠ ".")
    (hdouble : name ≠ "..") : push isSpecial names name = names ++ [name] := by
  rw [push_of_nameText_eq names htext hsingle hdouble, if_neg hnames]

/-- Only what is empty once it is stripped is written as nothing. -/
theorem nameText_eq_empty_iff {isSpecial : Bool} {name : String} :
    nameText isSpecial name = "" ↔ stripped name = "" :=
  nameText_eq_of_stripped_eq (by cases isSpecial <;> rfl) rfl

/-! ## Hosts -/

/-- The part of a URL that tells who answers for it, and nothing else: it is read as the authority,
and no character in it ends it early or is left out. -/
structure IsHost (host : List Char) (authority : Authority) : Prop where
  plain : ∀ c ∈ host, endsPlace true c = false ∧ c ≠ '\t' ∧ c ≠ '\n' ∧ c ≠ '\r'
  reads : authority? Host.parse? (some 80) host = some authority

/-- A host is not empty. -/
theorem IsHost.ne_nil {host : List Char} {authority : Authority} (h : IsHost host authority) :
    host ≠ [] := by
  rintro rfl
  have hnone : authority? Host.parse? (some 80) [] = none := rfl
  exact absurd (hnone.symm.trans h.reads) (by simp)

/-- The URL of a host, with some slashes behind. -/
def ofHost (host : List Char) (slashes : Nat) : String :=
  "http://" ++ String.ofList (host ++ List.replicate slashes '/')

theorem toList_ofHost (host : List Char) (slashes : Nat) :
    (ofHost host slashes).toList =
      ['h', 't', 't', 'p', ':', '/', '/'] ++ (host ++ List.replicate slashes '/') := by
  rw [ofHost, String.toList_append, String.toList_ofList, String.toList_ofList]

/-- A text between two characters that are no blanks is clean if it has no tabs and no line ends. -/
private theorem clean_eq {first last : Char} {inner : List Char}
    (hfirst : 0x20 < first.toNat) (hlast : 0x20 < last.toNat)
    (hall : ∀ c ∈ first :: (inner ++ [last]), c ≠ '\t' ∧ c ≠ '\n' ∧ c ≠ '\r') :
    clean (String.ofList (first :: (inner ++ [last]))) = first :: (inner ++ [last]) := by
  have hfirst' : ¬ first.toNat ≤ 0x20 := by omega
  have hlast' : ¬ last.toNat ≤ 0x20 := by omega
  have hreverse : (first :: (inner ++ [last])).reverse = last :: (inner.reverse ++ [first]) := by
    simp
  rw [clean, String.toList_ofList, List.dropWhile_cons_of_neg (by simpa using hfirst'), hreverse,
    List.dropWhile_cons_of_neg (by simpa using hlast'), ← hreverse, List.reverse_reverse,
    List.filter_eq_self]
  intro c hc
  simpa [and_assoc] using hall c hc

/-- An authority is taken up to the path behind it. -/
private theorem parseSpecial?_host {host : List Char} {authority : Authority}
    (h : IsHost host authority) (path : List Char) :
    parseSpecial? "http" 80 ('/' :: '/' :: (host ++ '/' :: path)) =
      some (ofTail "http" (some authority) false ('/' :: path)) := by
  have hends : ∀ c ∈ host, (!endsPlace true c) = true := by
    intro c hc
    rw [(h.plain c hc).1]
    rfl
  have hdrop : ('/' :: '/' :: (host ++ '/' :: path)).dropWhile (isSlash true) =
      host ++ '/' :: path := by
    obtain ⟨c, rest, rfl⟩ := List.exists_cons_of_ne_nil h.ne_nil
    have hslash : isSlash true c = false := by
      have hc := (h.plain c (by simp)).1
      rw [endsPlace, Bool.or_eq_false_iff, Bool.or_eq_false_iff] at hc
      exact hc.1.1
    rw [List.dropWhile_cons_of_pos (by rfl), List.dropWhile_cons_of_pos (by rfl), List.cons_append,
      List.dropWhile_cons_of_neg (by simp [hslash])]
  rw [parseSpecial?, hdrop, List.takeWhile_append_of_pos hends, List.dropWhile_append_of_pos hends]
  show (authority? Host.parse? (some 80) (host ++ [])).bind _ = _
  rw [List.append_nil, h.reads]
  rfl

/-- The URL of a path below a host. -/
theorem parse?_ofHost_append {host : List Char} {authority : Authority} (h : IsHost host authority)
    {path : String} {inner : List Char} {last : Char}
    (hpath : path.toList = '/' :: (inner ++ [last])) (hlast : 0x20 < last.toNat)
    (hplain : ∀ c ∈ path.toList, c ≠ '\t' ∧ c ≠ '\n' ∧ c ≠ '\r') :
    parse? (ofHost host 0 ++ path) = some (ofTail "http" (some authority) false path.toList) := by
  have htext : ofHost host 0 ++ path = String.ofList
      ('h' :: (['t', 't', 'p', ':', '/', '/'] ++ host ++ '/' :: inner ++ [last])) := by
    rw [← String.toList_inj, String.toList_append, toList_ofHost, hpath, String.toList_ofList]
    simp
  -- the text of the URL, opened at both ends, where blanks would not count
  have hletters : ∀ c ∈ ['h', 't', 'p', ':', '/'], c ≠ '\t' ∧ c ≠ '\n' ∧ c ≠ '\r' := by
    simp
  have hclean : clean (ofHost host 0 ++ path) =
      'h' :: 't' :: 't' :: 'p' :: ':' :: '/' :: '/' :: (host ++ path.toList) := by
    rw [htext, clean_eq (by decide) hlast]
    · simp [hpath]
    · intro c hc
      have hmem : c ∈ host ∨ c ∈ path.toList ∨ c ∈ ['h', 't', 'p', ':', '/'] := by
        rw [hpath]
        simp at hc ⊢
        grind
      rcases hmem with hmem | hmem | hmem
      · exact (h.plain c hmem).2
      · exact hplain c hmem
      · exact hletters c hmem
  have hscheme : ∀ rest, scheme? ('h' :: 't' :: 't' :: 'p' :: ':' :: rest) = some ("http", rest) :=
    fun _ => rfl
  have hport : specialSchemes.lookup "http" = some (some 80) := rfl
  simp only [parse?, hclean, hscheme, Option.bind_eq_bind, Option.bind_some, hport]
  rw [hpath]
  exact parseSpecial?_host h _

/-- The URL of the API of a host. -/
theorem parse?_ofHost {host : List Char} {authority : Authority} (h : IsHost host authority) :
    parse? (ofHost host 0 ++ "/api") =
      some ⟨"http", some authority, .named ["api"], none, none⟩ := by
  have hpath : "/api".toList = '/' :: (['a', 'p'] ++ ['i']) := rfl
  exact parse?_ofHost_append h hpath (by decide) (by simp)

/-- The URL of the chunks of a host. -/
theorem parse?_ofHost_chunks {host : List Char} {authority : Authority}
    (h : IsHost host authority) :
    parse? (ofHost host 0 ++ "/api" ++ "/chunks") =
      some ⟨"http", some authority, .named ["api", "chunks"], none, none⟩ := by
  have hpath : ("/api" ++ "/chunks").toList = '/' :: ("api/chunk".toList ++ ['s']) := rfl
  rw [String.append_assoc]
  exact parse?_ofHost_append h hpath (by decide) (by simp)

/-! ## Names of any URL -/

/-- A name in which neither a query nor a fragment begins. -/
def StaysInPath (name : String) : Prop :=
  ∀ c ∈ name.toList, c ≠ '?' ∧ c ≠ '#'

/-- The empty name stays in a path. -/
theorem staysInPath_empty : StaysInPath "" :=
  nofun

/-- A name stays in a path when it is escaped for paths. -/
theorem staysInPath_encode (name : List Char) : StaysInPath (encode pathEscapes name) := by
  intro c hc
  constructor
  all_goals
    rintro rfl
    exact not_mem_encode (by decide) (by decide) (by decide) hc

/-- Resolving drops names, escapes them or leaves an empty one. -/
theorem staysInPath_of_mem_resolve {found : List String} {names : List (List Char)}
    (hfound : ∀ name ∈ found, StaysInPath name) :
    ∀ name ∈ resolve found names, StaysInPath name := by
  induction names generalizing found with
  | nil => exact hfound
  | cons first rest ih =>
    have hbehind : ∀ name ∈ if rest = [] then [""] else [], StaysInPath name := by
      split
      · exact List.forall_mem_singleton.mpr staysInPath_empty
      · nofun
    rw [resolve]
    split
    · refine ih (List.forall_mem_append.mpr ⟨fun name hname => ?_, hbehind⟩)
      exact hfound name (List.dropLast_subset found hname)
    · split
      · exact ih (List.forall_mem_append.mpr ⟨hfound, hbehind⟩)
      · exact ih (List.forall_mem_append.mpr
          ⟨hfound, List.forall_mem_singleton.mpr (staysInPath_encode first)⟩)

/-- The names of a path that was read stay in a path. -/
theorem staysInPath_of_mem_parsePath {isSpecial : Bool} {cs : List Char} :
    ∀ name ∈ parsePath isSpecial cs, StaysInPath name := by
  unfold parsePath
  split
  · split
    · exact List.forall_mem_singleton.mpr staysInPath_empty
    · nofun
  · exact staysInPath_of_mem_resolve nofun

/-- Every URL is put together from its tail in the same way; those of the special schemes never have
a path that is just a text. -/
theorem exists_eq_ofTail {text : String} {url : Url} (h : parse? text = some url) :
    ∃ scheme authority isOpaque cs, url = ofTail scheme authority isOpaque cs ∧
      (isOpaque = true → isSpecialScheme scheme = false) := by
  obtain ⟨⟨scheme, cs⟩, -, hrest⟩ := Option.bind_eq_some_iff.mp h
  dsimp only at hrest
  split at hrest
  · obtain ⟨authority, -, hurl⟩ := Option.bind_eq_some_iff.mp hrest
    exact ⟨_, _, false, _, (Option.some.inj hurl).symm, nofun⟩
  · rw [parseFile?] at hrest
    dsimp only at hrest
    split at hrest
    · exact ⟨_, _, false, _, (Option.some.inj hrest).symm, nofun⟩
    · split at hrest
      · exact ⟨_, _, false, _, (Option.some.inj hrest).symm, nofun⟩
      · obtain ⟨host, -, hurl⟩ := Option.bind_eq_some_iff.mp hrest
        exact ⟨_, _, false, _, (Option.some.inj hurl).symm, nofun⟩
  · next hlookup =>
    have hother : isSpecialScheme scheme = false := by
      rw [isSpecialScheme, hlookup]
      rfl
    rw [parseOther?.eq_def] at hrest
    split at hrest
    · dsimp only at hrest
      split at hrest
      · exact ⟨_, _, false, _, (Option.some.inj hrest).symm, nofun⟩
      · obtain ⟨authority, -, hurl⟩ := Option.bind_eq_some_iff.mp hrest
        exact ⟨_, _, false, _, (Option.some.inj hurl).symm, nofun⟩
    · exact ⟨_, _, false, _, (Option.some.inj hrest).symm, nofun⟩
    · exact ⟨_, _, true, _, (Option.some.inj hrest).symm, fun _ => hother⟩

/-- Something can be put below every URL of a special scheme. -/
theorem exists_path_eq_named {text : String} {url : Url} (h : parse? text = some url)
    (hspecial : isSpecialScheme url.scheme = true) : ∃ names, url.path = .named names := by
  obtain ⟨scheme, authority, isOpaque, cs, rfl, hscheme⟩ := exists_eq_ofTail h
  cases isOpaque with
  | true => exact absurd hspecial (Bool.eq_false_iff.mp (hscheme rfl))
  | false => exact ⟨_, rfl⟩

/-- The names of a URL that was read stay in a path. -/
theorem staysInPath_of_parse? {text : String} {url : Url} (h : parse? text = some url)
    {names : List String} (hpath : url.path = .named names) :
    ∀ name ∈ names, StaysInPath name := by
  obtain ⟨scheme, authority, isOpaque, cs, rfl, -⟩ := exists_eq_ofTail h
  rw [ofTail] at hpath
  cases isOpaque with
  | true => cases hpath
  | false =>
    obtain rfl : parsePath (isSpecialScheme scheme) (splitTail cs).1 = names :=
      Path.named.inj hpath
    exact staysInPath_of_mem_parsePath

/-! ## Targets -/

theorem toList_text_named (names : List String) :
    (Path.named names).text.toList = names.flatMap fun name => '/' :: name.toList := by
  rw [Path.text, String.toList_join, List.flatMap_map]
  congr 1
  funext name
  rw [String.toList_append]
  rfl

/-- The target of a URL with a path of names and nothing behind: each name with a slash before. -/
theorem toList_target (scheme : String) (authority : Option Authority) (names : List String) :
    (target ⟨scheme, authority, .named names, none, none⟩).toList =
      names.flatMap fun name => '/' :: name.toList := by
  rw [← toList_text_named, target, String.toList_append]
  exact List.append_nil _

end ChunkScope.Http.Url
