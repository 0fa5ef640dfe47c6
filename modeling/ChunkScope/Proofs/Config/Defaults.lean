import ChunkScope.Config
import ChunkScope.Files
import ChunkScope.Proofs.Keyed

/-!
# Default settings that are written

A file with the default settings is written when there is none. It makes no difference to what is
loaded: the text that is written is read as the settings that hold without a file, so a node and its
clients go on as they were, and a second time nothing is written.

Whether there is a file is what the path says at the time. A path through a directory that is not
there leads nowhere, also when it would lead to a file once the directory has been made.
-/

/-! ## Files that are kept

What is asked of a file system by whoever writes a file and reads it again: looking does not change
it, and bytes that have been written are there to be read. A tree of files is such a file system: a
write touches one place only, and that place has not been a directory, so the way to it stays
open. -/

namespace ChunkScope.Files

/-- A file system that keeps its files: it stays as it is when it is looked at, and bytes that have
been written to a file are read back from it. -/
structure Access.Keeps {σ : Type} (files : Access (StateM σ)) : Prop where
  isThere : ∀ path s, ((files.isThere path).run s).2 = s
  read : ∀ path s, ((files.read path).run s).2 = s
  written : ∀ path data s s', (files.write path data).run s = (.ok (), s') →
    ((files.isThere path).run s').1 = true ∧ ((files.read path).run s').1 = .ok data

namespace Tree

variable {tree other : Tree}

/-- A path leads to the same place when all directories are still there. -/
theorem walk_of_directories
    (h : ∀ place, tree.entry? place = some .directory → other.entry? place = some .directory)
    {place found : List String} {parts : List String} (hwalk : tree.walk place parts = .ok found) :
    other.walk place parts = .ok found := by
  induction parts generalizing place with
  | nil => exact hwalk
  | cons part rest ih =>
    rw [walk, requireDirectory] at hwalk ⊢
    cases hentry : tree.entry? place with
    | none =>
      rw [hentry] at hwalk
      cases hwalk
    | some entry =>
      rw [hentry] at hwalk
      cases entry with
      | file data => cases hwalk
      | directory =>
        rw [h place hentry]
        exact ih hwalk

/-- A path leads where it did in a tree that has all the directories and maybe more. -/
theorem locate_of_directories
    (h : ∀ place, tree.entry? place = some .directory → other.entry? place = some .directory)
    {path : String} {place : List String} (hlocate : tree.locate path = .ok place) :
    other.locate path = .ok place := by
  rw [locate] at hlocate ⊢
  split at hlocate
  · cases hlocate
  · next hpath =>
    rw [if_neg hpath]
    exact walk_of_directories h hlocate

/-- A file that has been written is where its path leads, and holds what has been written. -/
theorem entry?_of_write {path : String} {data : Bytes} (h : write path data tree = .ok other) :
    ∃ place, other.locate path = .ok place ∧ other.entry? place = some (.file data) := by
  rw [write] at h
  split at h
  · cases h
  · next place hlocate =>
    split at h
    · cases h
    · next hplace =>
      cases h
      have hne : place ≠ [] := by
        rintro rfl
        exact hplace rfl
      have hentry (names : List String) :
          entry? ⟨Keyed.insert place (.file data) tree.entries⟩ names =
            if names = place then some (.file data) else tree.entry? names := by
        cases names with
        | nil => rw [if_neg (Ne.symm hne), entry?, entry?]
        | cons name names => exact Keyed.find?_insert _ place _ _
      refine ⟨place, locate_of_directories (fun names hnames => ?_) hlocate, ?_⟩
      · -- what has been a directory is not the place of the file
        have hne : names ≠ place := by
          rintro rfl
          exact hplace hnames
        rw [hentry, if_neg hne, hnames]
      · rw [hentry, if_pos rfl]

/-- A tree keeps its files. -/
theorem keeps_access : Access.Keeps access where
  isThere _ _ := rfl
  read _ _ := rfl
  written path data tree tree' h := by
    have hwrite : write path data tree = .ok tree' := by
      have hrun : attempt (write path data) tree = (.ok (), tree') := h
      rw [attempt] at hrun
      split at hrun
      · next heq =>
        cases hrun
        exact heq
      · cases hrun
    obtain ⟨place, hlocate, hentry⟩ := entry?_of_write hwrite
    constructor
    · show tree'.isThere path = true
      rw [isThere, hlocate]
      simp only [hentry, Option.isSome_some]
    · show tree'.read path = .ok data
      rw [read, hlocate]
      simp only [hentry]

end Tree

end ChunkScope.Files

/-! ## Default settings -/

namespace ChunkScope.Config

/-- The text of the default settings is read as the default settings. -/
theorem ofToml?_defaultText : ofToml? defaultText = some {} := by
  decide +kernel

/-- The text that is written for the default settings is read as them. -/
theorem ofFile_defaultText (path : String) :
    ofFile path (.ok (Utf8.encode defaultText)) = .ok {} := by
  rw [ofFile, Utf8.decode_encode]
  simp only [ofToml?_defaultText]

variable {σ : Type} {files : Files.Access (StateM σ)}

/-- The settings in a file are those that its text has, or the defaults where there is none, and to
read them changes nothing. -/
theorem readFile_run (hkeeps : files.Keeps) (path : String) (s : σ) :
    (readFile files path).run s =
      (if ((files.isThere path).run s).1 then ofFile path ((files.read path).run s).1 else .ok {},
        s) := by
  have hthere : (files.isThere path).run s = (((files.isThere path).run s).1, s) :=
    Prod.ext rfl (hkeeps.isThere path s)
  have hread : (files.read path).run s = (((files.read path).run s).1, s) :=
    Prod.ext rfl (hkeeps.read path s)
  rw [readFile, StateT.run_bind, hthere]
  cases ((files.isThere path).run s).1 with
  | false => rfl
  | true =>
    show ((files.read path >>= fun contents => pure (ofFile path contents)) :
      StateM σ (Except Failure Config)).run s = _
    rw [StateT.run_bind, hread]
    rfl

/-- What is loaded is what is in the file, with those settings replaced that the environment has. -/
theorem load_run (hkeeps : files.Keeps) (environment : Environment) (s : σ) :
    (load files environment).run s =
      (((readFile files (path environment)).run s).1.map (override environment), s) := by
  rw [load, StateT.run_bind, readFile_run hkeeps]
  rfl

/-- A file that is there is not written. -/
theorem writeDefault_run_of_isThere (hkeeps : files.Keeps) {environment : Environment} {s : σ}
    (h : ((files.isThere (path environment)).run s).1 = true) :
    (writeDefault files environment).run s = (.ok (path environment), s) := by
  have hthere : (files.isThere (path environment)).run s = (true, s) :=
    Prod.ext h (hkeeps.isThere _ s)
  rw [writeDefault, StateT.run_bind, hthere]
  rfl

/-- A file that has been written holds the text of the default settings. -/
theorem written_of_writeFile (hkeeps : files.Keeps) {path written : String} {s s' : σ}
    (h : (writeFile files path).run s = (.ok written, s')) :
    written = path ∧ ((files.isThere path).run s').1 = true ∧
      ((files.read path).run s').1 = .ok (Utf8.encode defaultText) := by
  rw [writeFile, StateT.run_bind] at h
  cases hparent : (createParent files path).run s with
  | mk made s₁ =>
    rw [hparent] at h
    cases made with
    | error fault => cases h
    | ok =>
      have hwrite : ((files.write path (Utf8.encode defaultText) >>= _ :
        StateM σ (Except Failure String)).run s₁) = (.ok written, s') := h
      rw [StateT.run_bind] at hwrite
      cases hresult : (files.write path (Utf8.encode defaultText)).run s₁ with
      | mk result s₂ =>
        rw [hresult] at hwrite
        cases result with
        | error fault => cases hwrite
        | ok =>
          cases hwrite
          exact ⟨rfl, hkeeps.written _ _ _ _ hresult⟩

/-- What becomes of a file system when the default settings are to be written to it. Where there is
a file already, nothing changes. When it succeeds, the same is loaded afterwards as before, whatever
else is in the environment, be it settings or a failure; and it succeeds once more and changes
nothing. -/
structure WritesOnlyDefaults (files : Files.Access (StateM σ)) (environment : Environment) (s : σ) :
    Prop where
  kept : ((files.isThere (path environment)).run s).1 = true →
    (writeDefault files environment).run s = (.ok (path environment), s)
  same : ∀ written s', (writeDefault files environment).run s = (.ok written, s') →
    ∀ other, path other = path environment →
      ((load files other).run s').1 = ((load files other).run s).1
  again : ∀ written s', (writeDefault files environment).run s = (.ok written, s') →
    (writeDefault files environment).run s' = (.ok written, s')

/-- When it has succeeded, the file has been there already or holds the default settings. -/
theorem writeDefault_cases (hkeeps : files.Keeps) {environment : Environment} {written : String}
    {s s' : σ} (h : (writeDefault files environment).run s = (.ok written, s')) :
    written = path environment ∧ ((files.isThere (path environment)).run s').1 = true ∧
      (s' = s ∨ ((files.isThere (path environment)).run s).1 = false ∧
        ((files.read (path environment)).run s').1 = .ok (Utf8.encode defaultText)) := by
  cases hthere : ((files.isThere (path environment)).run s).1 with
  | true =>
    rw [writeDefault_run_of_isThere hkeeps hthere] at h
    cases h
    exact ⟨rfl, hthere, .inl rfl⟩
  | false =>
    have hrun : (files.isThere (path environment)).run s = (false, s) :=
      Prod.ext hthere (hkeeps.isThere _ s)
    rw [writeDefault, StateT.run_bind, hrun] at h
    obtain ⟨hpath, hnow, hread⟩ := written_of_writeFile hkeeps h
    exact ⟨hpath, hnow, .inr ⟨rfl, hread⟩⟩

/-- Whatever is in the environment and in the file system, writing the default settings makes no
difference to what is loaded. -/
theorem writesOnlyDefaults_of_keeps (hkeeps : files.Keeps) (environment : Environment) (s : σ) :
    WritesOnlyDefaults files environment s where
  kept := writeDefault_run_of_isThere hkeeps
  same written s' h other hother := by
    obtain ⟨-, hnow, rfl | ⟨hbefore, hread⟩⟩ := writeDefault_cases hkeeps h
    · rfl
    · rw [load_run hkeeps, load_run hkeeps, readFile_run hkeeps, readFile_run hkeeps, hother,
        hnow, hread, hbefore, if_pos rfl, ofFile_defaultText]
      rfl
  again written s' h := by
    obtain ⟨rfl, hnow, -⟩ := writeDefault_cases hkeeps h
    exact writeDefault_run_of_isThere hkeeps hnow

private theorem eq_ok_of_toOption {ε α : Type} {result : Except ε α} {a : α}
    (h : result.toOption = some a) : result = .ok a := by
  cases result with
  | error fault => cases h
  | ok b => rw [Option.some.inj h]

/-- In an empty tree the file is written with its directory, and the defaults are loaded from it. -/
theorem writesOnlyDefaults_empty :
    let environment : Environment := fun name =>
      if name = "PEEK_CONFIG" then some "etc/peek.toml" else none
    let written : Files.Tree := ⟨[(["etc"], .directory),
      (["etc", "peek.toml"], .file (Utf8.encode defaultText))]⟩
    Files.Tree.access.Keeps ∧
      (writeDefault Files.Tree.access environment).run .empty = (.ok "etc/peek.toml", written) ∧
      ((load Files.Tree.access environment).run written).1 = .ok {} := by
  intro environment written
  have hrun : (writeDefault Files.Tree.access environment).run .empty =
      (.ok "etc/peek.toml", written) :=
    Prod.ext (eq_ok_of_toOption (by decide +kernel)) (congrArg Files.Tree.mk (by decide +kernel))
  have hload : ((load Files.Tree.access environment).run .empty).1 = .ok {} :=
    eq_ok_of_toOption (by decide +kernel)
  have hsame := (writesOnlyDefaults_of_keeps Files.Tree.keeps_access environment .empty).same
    "etc/peek.toml" written hrun environment rfl
  exact ⟨Files.Tree.keeps_access, hrun, hsame.trans hload⟩

end ChunkScope.Config
