import Graft.Proofs.ByteOrder
import Graft.Proofs.History
import Mathlib.Data.List.Basic

/-!
# A directory, file by file

Discovery comes to registrations of single files.  Which files those are does not depend on the
order in which a directory lists its entries, since their names differ and are put in the order of
their bytes.  From there on the first file that cannot be read decides: the files before it are
registered, the ones after it are not looked at.

* `Registry.HasJsonExtension`, `Registry.Admitted`   names that discovery takes up;
* `Registry.Holds`, `Registry.Unreadable`   the tree in a file, and why there is none;
* `organFiles`                  the files that discovery reads, in the order of their names;
* `organFiles_eq`               nothing else in a directory matters;
* `Registry.Stopped`            how many files came in, or what was wrong with the first that failed;
* `registerFiles_by_files`      what is registered, and where it ends;
* `Registry.discover_by_files`  directories, in whatever order they are listed.
-/

namespace Graft.Registry

/-! ## names -/

/-- some name, and `.json` after it -/
def HasJsonExtension (name : String) : Prop := ∃ stem, stem ≠ "" ∧ name = stem ++ ".json"

/-- a name under which any tree can be registered -/
def Admitted (name : String) : Prop :=
  ∀ (r : Registry) (tree : Json), ∃ organId, (r.registerDiscovered name tree).2 = .ok organId

theorem isJsonName_iff (name : String) : isJsonName name = true ↔ HasJsonExtension name := by
  have hsuffix : ".json".toList = jsonSuffix := rfl
  simp only [isJsonName, Bool.and_eq_true, List.isSuffixOf_iff_suffix, decide_eq_true_eq]
  constructor
  · rintro ⟨⟨front, hfront⟩, hname⟩
    refine ⟨String.ofList front, ?_, ?_⟩
    · intro hempty
      have hnil : front = [] := by
        rw [← String.toList_ofList (l := front), hempty, String.toList_empty]
      exact hname (by rw [← hfront, hnil, List.nil_append])
    · rw [← String.toList_inj, String.toList_append, String.toList_ofList, hsuffix, hfront]
  · rintro ⟨stem, hstem, rfl⟩
    rw [String.toList_append, hsuffix]
    refine ⟨⟨stem.toList, rfl⟩, fun hself => hstem ?_⟩
    rw [← String.toList_inj, List.append_left_eq_self.mp hself, String.toList_empty]

theorem admitted_iff (name : String) : Admitted name ↔ isSafeId (discoveredId name) = true := by
  constructor
  · intro h
    obtain ⟨organId, hok⟩ := h empty .null
    by_contra hunsafe
    rw [registerDiscovered, if_neg hunsafe] at hok
    exact nomatch hok
  · intro hsafe r tree
    exact ⟨discoveredId name, by rw [registerDiscovered, if_pos hsafe]⟩

/-- a name is admitted or refused once and for all -/
theorem registerDiscovered_refused {name : String} (h : ¬ Admitted name) (r : Registry)
    (tree : Json) : r.registerDiscovered name tree = (r, .error (.invalidOrganId name)) := by
  rw [admitted_iff] at h
  rw [registerDiscovered, if_neg h]

/-! ## contents -/

/-- the bytes are the text of a tree -/
inductive Holds (bytes : ByteArray) (tree : Json) : Prop
  | intro {text : String} : String.fromUTF8? bytes = some text →
      Json.ofText? Json.depthLimit text = some tree → Holds bytes tree

/-- why bytes hold no tree -/
inductive Unreadable (bytes : ByteArray) : RegistryError → Prop
  | notText : String.fromUTF8? bytes = none → Unreadable bytes (.reading .notText)
  | malformed {text : String} : String.fromUTF8? bytes = some text →
      Json.ofText? Json.depthLimit text = none → Unreadable bytes .malformedJson

theorem readTree_holds {bytes : ByteArray} {tree : Json} (h : readTree bytes = .ok tree) :
    Holds bytes tree := by
  unfold readTree at h
  split at h
  · exact nomatch h
  · rename_i text htext
    split at h
    · rename_i read hread
      obtain rfl := Except.ok.inj h
      exact ⟨htext, hread⟩
    · exact nomatch h

theorem readTree_unreadable {bytes : ByteArray} {e : RegistryError}
    (h : readTree bytes = .error e) : Unreadable bytes e := by
  unfold readTree at h
  split at h
  · rename_i htext
    obtain rfl := Except.error.inj h
    exact .notText htext
  · rename_i text htext
    split at h
    · exact nomatch h
    · rename_i hread
      obtain rfl := Except.error.inj h
      exact .malformed htext hread

/-! ## the files that are read -/

/-- the files of a directory that discovery reads, by name -/
def organFiles (entries : List (String × DirectoryEntry)) : List (String × ByteArray) :=
  (jsonFiles entries).filter hasSafeName

/-- the name and the content of a `.json` file -/
theorem jsonFile_eq_some {name : String} {entry : DirectoryEntry} {file : String × ByteArray}
    (h : (match entry with
      | .file bytes => if isJsonName name then some (name, bytes) else none
      | .folder => none) = some file) :
    entry = .file file.2 ∧ name = file.1 ∧ isJsonName file.1 = true := by
  cases entry with
  | folder => exact nomatch h
  | file bytes =>
    by_cases hjson : isJsonName name = true
    · obtain rfl := Option.some.inj ((if_pos hjson).symm.trans h)
      exact ⟨rfl, rfl, hjson⟩
    · exact nomatch (if_neg hjson).symm.trans h

theorem mem_jsonFiles {entries : List (String × DirectoryEntry)} {name : String}
    {bytes : ByteArray} :
    (name, bytes) ∈ jsonFiles entries ↔
      (name, .file bytes) ∈ entries ∧ isJsonName name = true := by
  unfold jsonFiles
  rw [(List.mergeSort_perm _ _).mem_iff, List.mem_filterMap]
  constructor
  · rintro ⟨⟨_, _⟩, hentry, hkept⟩
    obtain ⟨rfl, rfl, hjson⟩ := jsonFile_eq_some hkept
    exact ⟨hentry, hjson⟩
  · rintro ⟨hentry, hjson⟩
    exact ⟨(name, .file bytes), hentry, if_pos hjson⟩

theorem mem_organFiles {entries : List (String × DirectoryEntry)} {name : String}
    {bytes : ByteArray} :
    (name, bytes) ∈ organFiles entries ↔
      (name, .file bytes) ∈ entries ∧ HasJsonExtension name ∧ Admitted name := by
  unfold organFiles
  rw [List.mem_filter, mem_jsonFiles, isJsonName_iff, admitted_iff, and_assoc]
  rfl

/-- different names stay different -/
theorem jsonFiles_distinct {entries : List (String × DirectoryEntry)}
    (h : (entries.map Prod.fst).Nodup) :
    (jsonFiles entries).Pairwise fun a b => a.1 ≠ b.1 := by
  unfold jsonFiles
  refine (List.mergeSort_perm _ _).symm.pairwise ?_ fun hne => hne.symm
  refine List.Pairwise.filterMap _ ?_ (List.pairwise_map.mp h)
  rintro ⟨_, _⟩ ⟨_, _⟩ hne file hfile file' hfile'
  obtain ⟨_, rfl, _⟩ := jsonFile_eq_some hfile
  obtain ⟨_, rfl, _⟩ := jsonFile_eq_some hfile'
  exact hne

theorem jsonFiles_sorted (entries : List (String × DirectoryEntry)) :
    (jsonFiles entries).Pairwise fun a b => a.1 ≤ b.1 := by
  unfold jsonFiles
  refine (List.pairwise_mergeSort ?_ ?_ _).imp of_decide_eq_true
  · intro a b c hab hbc
    exact decide_eq_true (le_trans (of_decide_eq_true hab) (of_decide_eq_true hbc))
  · intro a b
    rw [Bool.or_eq_true, decide_eq_true_eq, decide_eq_true_eq]
    exact le_total a.1 b.1

/-- files in the order of the bytes of their names -/
def InByteOrder (files : List (String × ByteArray)) : Prop :=
  files.Pairwise fun a b => Text.bytes a.1 < Text.bytes b.1

theorem organFiles_inByteOrder {entries : List (String × DirectoryEntry)}
    (h : (entries.map Prod.fst).Nodup) : InByteOrder (organFiles entries) := by
  have hstrict := (jsonFiles_distinct h).and (jsonFiles_sorted entries)
  refine (hstrict.imp ?_).filter _
  rintro a b ⟨hne, hle⟩
  exact (Text.lt_iff_bytes_lt a.1 b.1).mp (lt_of_le_of_ne hle hne)

/-- the order is strict, so the members determine the list -/
theorem InByteOrder.ext {files files' : List (String × ByteArray)} (h : InByteOrder files)
    (h' : InByteOrder files') (hmem : ∀ file, file ∈ files ↔ file ∈ files') : files = files' := by
  have hirrefl : ∀ a : String × ByteArray, ¬ Text.bytes a.1 < Text.bytes a.1 :=
    fun a => List.lt_irrefl _
  have hnodup : ∀ {files}, InByteOrder files → files.Nodup := fun h => h.imp fun {a b} hlt => by
    rintro rfl
    exact hirrefl a hlt
  refine List.Perm.eq_of_pairwise ?_ h h'
    ((List.perm_ext_iff_of_nodup (hnodup h) (hnodup h')).mpr hmem)
  exact fun a b _ _ hab hba => absurd hba (List.lt_asymm hab)

/-- folders, other files and the contents under other names make no difference -/
theorem organFiles_eq {entries entries' : List (String × DirectoryEntry)}
    (h : (entries.map Prod.fst).Nodup) (h' : (entries'.map Prod.fst).Nodup)
    (hsame : ∀ name bytes, HasJsonExtension name → Admitted name →
      ((name, .file bytes) ∈ entries' ↔ (name, .file bytes) ∈ entries)) :
    organFiles entries' = organFiles entries := by
  refine (organFiles_inByteOrder h').ext (organFiles_inByteOrder h) ?_
  rintro ⟨name, bytes⟩
  rw [mem_organFiles, mem_organFiles]
  exact and_congr_left fun hname => hsame name bytes hname.1 hname.2

/-! ## one file after the other -/

/-- a file and what it is registered as -/
def ReadAs (file : String × ByteArray) (entry : String × Json) : Prop :=
  file.1 = entry.1 ∧ Holds file.2 entry.2

/-- registers trees under file names -/
def registerAll (r : Registry) (entries : List (String × Json)) : Registry :=
  entries.foldl (fun r entry => (r.registerDiscovered entry.1 entry.2).1) r

theorem registerAll_cons (r : Registry) (entry : String × Json) (rest : List (String × Json)) :
    r.registerAll (entry :: rest) = (r.registerDiscovered entry.1 entry.2).1.registerAll rest := by
  unfold registerAll
  rw [List.foldl_cons]

/-- where discovery ends after `count` files, with the rest before it -/
inductive Stopped (count : Nat) : List (String × ByteArray) → Except RegistryError Nat → Prop
  | done : Stopped count [] (.ok count)
  | unreadable {file : String × ByteArray} {rest : List (String × ByteArray)} {e : RegistryError} :
      Unreadable file.2 e → Stopped count (file :: rest) (.error e)

/-- a file without a safe id is passed over, whatever it holds -/
theorem registerFiles_filter (r : Registry) (count : Nat) (files : List (String × ByteArray)) :
    r.registerFiles count files = r.registerFiles count (files.filter hasSafeName) := by
  induction files generalizing r count with
  | nil => rfl
  | cons file rest ih =>
    obtain ⟨name, bytes⟩ := file
    by_cases hsafe : isSafeId (discoveredId name) = true
    · have hkeep : hasSafeName (name, bytes) = true := hsafe
      rw [List.filter_cons_of_pos hkeep, registerFiles, registerFiles, if_pos hsafe, if_pos hsafe]
      cases readTree bytes with
      | ok tree => exact ih _ _
      | error e => rfl
    · have hpass : ¬ hasSafeName (name, bytes) = true := hsafe
      rw [List.filter_cons_of_neg hpass, registerFiles, if_neg hsafe]
      exact ih r count

theorem discover_listing (r : Registry) (entries : List (String × DirectoryEntry)) :
    r.discover (.listing entries) = r.registerFiles 0 (organFiles entries) :=
  r.registerFiles_filter 0 (jsonFiles entries)

/-- files up to the first that cannot be read are registered under their names -/
theorem registerFiles_by_files (r : Registry) (count : Nat) (files : List (String × ByteArray))
    (hsafe : ∀ file ∈ files, hasSafeName file = true) :
    ∃ read entries rest, files = read ++ rest ∧ List.Forall₂ ReadAs read entries ∧
      (r.registerFiles count files).1 = r.registerAll entries ∧
      Stopped (count + read.length) rest (r.registerFiles count files).2 := by
  induction files generalizing r count with
  | nil => exact ⟨[], [], [], rfl, .nil, rfl, .done⟩
  | cons file files ih =>
    obtain ⟨name, bytes⟩ := file
    obtain ⟨hname, hfiles⟩ := List.forall_mem_cons.mp hsafe
    have hname : isSafeId (discoveredId name) = true := hname
    rw [registerFiles, if_pos hname]
    cases htree : readTree bytes with
    | error e => exact ⟨[], [], _, rfl, .nil, rfl, .unreadable (readTree_unreadable htree)⟩
    | ok tree =>
      obtain ⟨read, entries, rest, rfl, hread, hleft, hstop⟩ :=
        ih (r.putDiscovered (discoveredId name) tree) (count + 1) hfiles
      have hstep : (r.registerDiscovered name tree).1 =
          r.putDiscovered (discoveredId name) tree := by
        rw [registerDiscovered, if_pos hname]
      refine ⟨(name, bytes) :: read, (name, tree) :: entries, rest, rfl,
        .cons ⟨rfl, readTree_holds htree⟩ hread, ?_, ?_⟩
      · rw [registerAll_cons, hstep]
        exact hleft
      · rw [List.length_cons, Nat.add_comm read.length, ← Nat.add_assoc]
        exact hstop

theorem registerDiscovered_beside (r : Registry) (name : String) (tree : Json) :
    (r.registerDiscovered name tree).1.organs = r.organs ∧
      (r.registerDiscovered name tree).1.labels = r.labels := by
  rw [registerDiscovered]
  split
  · exact ⟨rfl, rfl⟩
  · exact ⟨rfl, rfl⟩

theorem registerAll_beside (r : Registry) (entries : List (String × Json)) :
    (r.registerAll entries).organs = r.organs ∧ (r.registerAll entries).labels = r.labels := by
  induction entries generalizing r with
  | nil => exact ⟨rfl, rfl⟩
  | cons entry rest ih =>
    obtain ⟨horgans, hlabels⟩ := r.registerDiscovered_beside entry.1 entry.2
    rw [registerAll_cons, ← horgans, ← hlabels]
    exact ih _

/-- **A directory is discovered file by file, in whatever order it is listed.**  The files that
count are those with the extension `.json` whose names are not refused; the outcome depends on
nothing else in the directory.  They are registered in the order of the bytes of their names, up to
the first that is no text or no JSON: that one is the error, and without one the number of files is
returned.  Static organs and labels stay. -/
theorem discover_by_files (r : Registry) (entries : List (String × DirectoryEntry))
    (hdistinct : (entries.map Prod.fst).Nodup) :
    (∀ entries', entries'.Perm entries →
        r.discover (.listing entries') = r.discover (.listing entries)) ∧
      (∀ entries', (entries'.map Prod.fst).Nodup →
        (∀ name bytes, HasJsonExtension name → Admitted name →
          ((name, .file bytes) ∈ entries' ↔ (name, .file bytes) ∈ entries)) →
        r.discover (.listing entries') = r.discover (.listing entries)) ∧
      (∀ name, ¬ Admitted name → ∀ (r' : Registry) tree,
        r'.registerDiscovered name tree = (r', .error (.invalidOrganId name))) ∧
      ∃ files,
        (∀ name bytes, (name, bytes) ∈ files ↔
          (name, .file bytes) ∈ entries ∧ HasJsonExtension name ∧ Admitted name) ∧
        InByteOrder files ∧
        ∃ read registered rest, files = read ++ rest ∧ List.Forall₂ ReadAs read registered ∧
          (r.discover (.listing entries)).1 = r.registerAll registered ∧
          Stopped read.length rest (r.discover (.listing entries)).2 ∧
          (r.discover (.listing entries)).1.organs = r.organs ∧
          (r.discover (.listing entries)).1.labels = r.labels := by
  have hsame : ∀ entries', (entries'.map Prod.fst).Nodup →
      (∀ name bytes, HasJsonExtension name → Admitted name →
        ((name, .file bytes) ∈ entries' ↔ (name, .file bytes) ∈ entries)) →
      r.discover (.listing entries') = r.discover (.listing entries) := by
    intro entries' hdistinct' hmem
    rw [discover_listing, discover_listing, organFiles_eq hdistinct hdistinct' hmem]
  refine ⟨fun entries' hperm => ?_, hsame, fun _ => registerDiscovered_refused, organFiles entries,
    fun _ _ => mem_organFiles, organFiles_inByteOrder hdistinct, ?_⟩
  · exact hsame entries' ((hperm.map Prod.fst).nodup_iff.mpr hdistinct)
      fun _ _ _ _ => hperm.mem_iff
  · obtain ⟨read, registered, rest, hfiles, hread, hleft, hstop⟩ :=
      r.registerFiles_by_files 0 (organFiles entries) fun _ h => (List.mem_filter.mp h).2
    rw [← discover_listing] at hleft hstop
    rw [Nat.zero_add] at hstop
    obtain ⟨horgans, hlabels⟩ := r.registerAll_beside registered
    exact ⟨read, registered, rest, hfiles, hread, hleft, hstop,
      (congrArg Registry.organs hleft).trans horgans,
      (congrArg Registry.labels hleft).trans hlabels⟩

/-- two files for one id, an unsafe name, a folder, another extension, and a file that is no text -/
theorem discover_by_files_faq :
    let entries : List (String × DirectoryEntry) := [("FAQ.json", .file "true".toUTF8),
      ("draft copy.json", .file "not json".toUTF8), ("faq.json", .file "[1]".toUTF8),
      ("notes.txt", .file "not json".toUTF8), ("old.json", .folder), ("zz.json", .file ⟨#[0xff]⟩)]
    (entries.map Prod.fst).Nodup ∧
      empty.discover (.listing entries.reverse) =
        ({ discovered := [("faq", .array [.number (.int 1)])] }, .error (.reading .notText)) := by
  intro entries
  have hdistinct : (entries.map Prod.fst).Nodup := by decide
  have hsorted : jsonFiles entries = [("FAQ.json", "true".toUTF8),
      ("draft copy.json", "not json".toUTF8), ("faq.json", "[1]".toUTF8), ("zz.json", ⟨#[0xff]⟩)] :=
    List.mergeSort_of_pairwise (by decide +kernel)
  refine ⟨hdistinct, ?_⟩
  rw [(empty.discover_by_files entries hdistinct).1 _ entries.reverse_perm, discover, hsorted]
  decide +kernel

end Graft.Registry
