import Graft.Proofs.Directory
import Graft.Proofs.Entries

/-!
# How many files, how many organs

Discovery counts the files it registers.  Several names may lead to one id, by their capitals or by
blanks around them, and then the last of these files is the organ.  So what is counted is not the
organs: there are fewer of them whenever two files meet.

* `Registry.Taken`            a file that discovery registers;
* `Registry.Meet`             two files for one id;
* `Registry.filed`            the trees that are left under the ids of the files;
* `Registry.discovered_registerAll`   registration puts them over what was there;
* `Registry.nodup_ids_iff`    every file has an id of its own just if none meet;
* `Registry.discover_count`   the number that is returned, and the number of organs.
-/

namespace Graft.Registry

/-! ## ids of files -/

/-- a file of the directory that discovery registers, if it gets as far -/
def Taken (entries : List (String × DirectoryEntry)) (file : String × ByteArray) : Prop :=
  (file.1, .file file.2) ∈ entries ∧ HasJsonExtension file.1 ∧ Admitted file.1

/-- two files of different names, for one id -/
def Meet (entries : List (String × DirectoryEntry)) : Prop :=
  ∃ file file', Taken entries file ∧ Taken entries file' ∧
    file.1 ≠ file'.1 ∧ discoveredId file.1 = discoveredId file'.1

theorem mem_organFiles_iff_taken {entries : List (String × DirectoryEntry)}
    {file : String × ByteArray} : file ∈ organFiles entries ↔ Taken entries file := mem_organFiles

theorem organFiles_distinct {entries : List (String × DirectoryEntry)}
    (hdistinct : (entries.map Prod.fst).Nodup) :
    (organFiles entries).Pairwise fun a b => a.1 ≠ b.1 := (jsonFiles_distinct hdistinct).filter _

theorem nodup_ids_iff {entries : List (String × DirectoryEntry)}
    (hdistinct : (entries.map Prod.fst).Nodup) :
    ((organFiles entries).map fun file => discoveredId file.1).Nodup ↔ ¬ Meet entries := by
  constructor
  · rintro hnodup ⟨file, file', hfile, hfile', hne, hid⟩
    have hsame : file = file' := List.inj_on_of_nodup_map hnodup
      (mem_organFiles_iff_taken.mpr hfile) (mem_organFiles_iff_taken.mpr hfile') hid
    exact hne (congrArg Prod.fst hsame)
  · intro hapart
    apply List.pairwise_map.mpr
    apply (organFiles_distinct hdistinct).imp_of_mem
    intro file file' hfile hfile' hne hid
    exact hapart ⟨file, file', mem_organFiles_iff_taken.mp hfile,
      mem_organFiles_iff_taken.mp hfile', hne, hid⟩

/-! ## what registration leaves -/

/-- trees under the ids of their files, in order -/
def byId (registered : List (String × Json)) : List (String × Json) :=
  registered.map fun entry => (discoveredId entry.1, entry.2)

/-- of two trees for one id the later one is left -/
def filed (registered : List (String × Json)) : Keyed Json := Keyed.ofList (byId registered)

theorem discovered_registerAll (r : Registry) (registered : List (String × Json))
    (hsafe : ∀ entry ∈ registered, isSafeId (discoveredId entry.1) = true) :
    (r.registerAll registered).discovered =
      (byId registered).foldl (fun m entry => Keyed.insert m entry.1 entry.2) r.discovered := by
  induction registered generalizing r with
  | nil => rfl
  | cons entry rest ih =>
    obtain ⟨hentry, hrest⟩ := List.forall_mem_cons.mp hsafe
    have hstep : (r.registerDiscovered entry.1 entry.2).1 =
        r.putDiscovered (discoveredId entry.1) entry.2 := by
      rw [registerDiscovered, if_pos hentry]
    rw [registerAll_cons, hstep, ih _ hrest]
    rfl

/-- the files that were read have the names under which they are registered -/
theorem map_fst_of_readAs {read : List (String × ByteArray)} {registered : List (String × Json)}
    (h : List.Forall₂ ReadAs read registered) :
    registered.map Prod.fst = read.map Prod.fst := by
  induction h with
  | nil => rfl
  | cons hread _ ih => rw [List.map_cons, List.map_cons, hread.1, ih]

theorem exists_readAs {read : List (String × ByteArray)} {registered : List (String × Json)}
    (h : List.Forall₂ ReadAs read registered) {entry : String × Json} (hentry : entry ∈ registered) :
    ∃ file ∈ read, ReadAs file entry := by
  induction h with
  | nil => exact absurd hentry List.not_mem_nil
  | @cons file _ _ _ hread _ ih =>
    rcases List.mem_cons.mp hentry with rfl | hrest
    · exact ⟨file, List.mem_cons_self, hread⟩
    · obtain ⟨file', hfile', hread'⟩ := ih hrest
      exact ⟨file', List.mem_cons_of_mem _ hfile', hread'⟩

theorem keys_filed {read : List (String × ByteArray)} {registered : List (String × Json)}
    (h : List.Forall₂ ReadAs read registered) :
    Keyed.keys (filed registered) = (read.map fun file => discoveredId file.1).eraseDups := by
  have hids : registered.map (discoveredId ∘ Prod.fst) = read.map (discoveredId ∘ Prod.fst) := by
    rw [← List.map_map, ← List.map_map, map_fst_of_readAs h]
  unfold filed byId
  rw [Keyed.keys_ofList, List.map_map]
  exact congrArg List.eraseDups hids

theorem file_of_filed {read : List (String × ByteArray)} {registered : List (String × Json)}
    (h : List.Forall₂ ReadAs read registered) {id : String} {tree : Json}
    (hid : Keyed.get? (filed registered) id = some tree) :
    ∃ file ∈ read, discoveredId file.1 = id ∧ Holds file.2 tree := by
  unfold filed at hid
  rw [Keyed.get?_ofList] at hid
  obtain ⟨⟨name, _⟩, hentry, heq⟩ := List.mem_map.mp (Keyed.mem_of_last? hid)
  obtain ⟨rfl, rfl⟩ := Prod.mk.inj heq
  obtain ⟨file, hfile, hname, hholds⟩ := exists_readAs h hentry
  exact ⟨file, hfile, congrArg discoveredId hname, hholds⟩

theorem length_filed {read : List (String × ByteArray)} {registered : List (String × Json)}
    (h : List.Forall₂ ReadAs read registered) :
    (filed registered).length = (read.map fun file => discoveredId file.1).eraseDups.length := by
  rw [← keys_filed h]
  exact (List.length_map _).symm

/-- ids that were there already do not count -/
theorem length_discovered_registerAll (r : Registry) (registered : List (String × Json))
    (hsafe : ∀ entry ∈ registered, isSafeId (discoveredId entry.1) = true) :
    (r.registerAll registered).discovered.length = r.discovered.length +
      ((Keyed.keys (filed registered)).filter fun id => !Keyed.contains r.discovered id).length := by
  have hkeys := congrArg List.length (Keyed.keys_foldl_insert r.discovered (byId registered))
  rw [← r.discovered_registerAll registered hsafe, List.length_append] at hkeys
  unfold Keyed.keys at hkeys
  rw [List.length_map, List.length_map] at hkeys
  exact hkeys

/-! ## the number -/

/-- without an error every file has been registered -/
theorem registered_of_ok {r : Registry} {entries : List (String × DirectoryEntry)} {count : Nat}
    (hcount : (r.discover (.listing entries)).2 = .ok count) :
    count = (organFiles entries).length ∧ ∃ registered,
      List.Forall₂ ReadAs (organFiles entries) registered ∧
      (r.discover (.listing entries)).1 = r.registerAll registered := by
  obtain ⟨read, registered, rest, hfiles, hread, hleft, hstop⟩ :=
    r.registerFiles_by_files 0 (organFiles entries) fun _ h => (List.mem_filter.mp h).2
  rw [← discover_listing] at hleft hstop
  rw [hcount, Nat.zero_add] at hstop
  cases hstop with
  | done =>
    rw [List.append_nil] at hfiles
    rw [hfiles]
    exact ⟨rfl, registered, hread, hleft⟩

/-- **Discovery returns the number of files, not of organs.**  If it succeeds, every file that is
taken has been registered, and their number is returned.  What the call leaves are the trees `filed`
of these files, one for every id that a file has, over what was there before; the discovered set
grows by the ids that are new.  There are at most as many ids as files, and as many just if no two
files meet. -/
theorem discover_count (r : Registry) (entries : List (String × DirectoryEntry)) (count : Nat)
    (hdistinct : (entries.map Prod.fst).Nodup)
    (hcount : (r.discover (.listing entries)).2 = .ok count) :
    ∃ (files : List (String × ByteArray)) (filed : Keyed Json),
      files.Nodup ∧ (∀ file, file ∈ files ↔ Taken entries file) ∧
      count = files.length ∧
      Keyed.Distinct filed ∧
      (∀ id, id ∈ Keyed.keys filed ↔ ∃ file ∈ files, discoveredId file.1 = id) ∧
      (∀ id tree, Keyed.get? filed id = some tree →
        ∃ file ∈ files, discoveredId file.1 = id ∧ Holds file.2 tree) ∧
      (∀ id, Keyed.get? (r.discover (.listing entries)).1.discovered id =
        (Keyed.get? filed id).or (Keyed.get? r.discovered id)) ∧
      (r.discover (.listing entries)).1.discovered.length = r.discovered.length +
        ((Keyed.keys filed).filter fun id => !Keyed.contains r.discovered id).length ∧
      filed.length ≤ count ∧ (filed.length = count ↔ ¬ Meet entries) := by
  obtain ⟨rfl, registered, hread, hleft⟩ := registered_of_ok hcount
  have hsafe : ∀ entry ∈ registered, isSafeId (discoveredId entry.1) = true := by
    intro entry hentry
    obtain ⟨file, hfile, hname, _⟩ := exists_readAs hread hentry
    have hadmitted := (mem_organFiles_iff_taken.mp hfile).2.2
    rw [← hname]
    exact (admitted_iff file.1).mp hadmitted
  have hnodup : (organFiles entries).Nodup :=
    (organFiles_distinct hdistinct).imp fun hne heq => hne (congrArg Prod.fst heq)
  have hids : ((organFiles entries).map fun file => discoveredId file.1).length =
      (organFiles entries).length := List.length_map _
  refine ⟨organFiles entries, filed registered, hnodup, fun _ => mem_organFiles_iff_taken, rfl,
    Keyed.distinct_ofList _, fun id => ?_, fun id tree => file_of_filed hread, fun id => ?_, ?_, ?_,
    ?_⟩
  · rw [keys_filed hread, List.mem_eraseDups, List.mem_map]
  · rw [hleft, r.discovered_registerAll registered hsafe]
    exact Keyed.get?_foldl_insert _ _ id
  · rw [hleft]
    exact r.length_discovered_registerAll registered hsafe
  · rw [length_filed hread, ← hids]
    exact (eraseDups_sublist _).length_le
  · rw [length_filed hread, ← hids, length_eraseDups_eq]
    exact nodup_ids_iff hdistinct

/-- two of three files meet, so that there are fewer organs than files -/
theorem discover_count_team :
    let entries : List (String × DirectoryEntry) := [("FAQ.json", .file "true".toUTF8),
      ("faq.json", .file "[1]".toUTF8), ("team.json", .file "null".toUTF8)]
    (entries.map Prod.fst).Nodup ∧ (empty.discover (.listing entries)).2 = .ok 3 ∧
      (empty.discover (.listing entries)).1.discovered.length < 3 := by
  intro entries
  have hdistinct : (entries.map Prod.fst).Nodup := by decide
  have hsorted : jsonFiles entries = [("FAQ.json", "true".toUTF8), ("faq.json", "[1]".toUTF8),
      ("team.json", "null".toUTF8)] := List.mergeSort_of_pairwise (by decide +kernel)
  have hcount : (empty.discover (.listing entries)).2 = .ok 3 := by
    rw [discover, hsorted]
    decide +kernel
  have hcapitals : Taken entries ("FAQ.json", "true".toUTF8) := ⟨List.mem_cons_self,
    ⟨"FAQ", by decide, by decide⟩, (admitted_iff "FAQ.json").mpr (by decide +kernel)⟩
  have hsmall : Taken entries ("faq.json", "[1]".toUTF8) :=
    ⟨List.mem_cons_of_mem _ List.mem_cons_self, ⟨"faq", by decide, by decide⟩,
      (admitted_iff "faq.json").mpr (by decide +kernel)⟩
  have hmeet : Meet entries := ⟨_, _, hcapitals, hsmall, by decide, by decide +kernel⟩
  obtain ⟨_, filed, _, _, _, _, _, _, _, hgrown, hle, heq⟩ :=
    empty.discover_count entries 3 hdistinct hcount
  have hlt : filed.length < 3 := lt_of_le_of_ne hle fun h => heq.mp h hmeet
  refine ⟨hdistinct, hcount, ?_⟩
  calc (empty.discover (.listing entries)).1.discovered.length
      = 0 + _ := hgrown
    _ ≤ (Keyed.keys filed).length := by
      rw [Nat.zero_add]
      exact List.length_filter_le _ _
    _ = filed.length := List.length_map _
    _ < 3 := hlt

/-- nothing was registered before; two files, one organ, and the number is two -/
theorem discover_count_exceeds_organs :
    let entries : List (String × DirectoryEntry) :=
      [("FAQ.json", .file "true".toUTF8), ("faq.json", .file "[1]".toUTF8)]
    let r := Start.empty.registry.run []
    r.discovered = [] ∧ (entries.map Prod.fst).Nodup ∧
      r.discover (.listing entries) =
        ({ discovered := [("faq", .array [.number (.int 1)])] }, .ok 2) := by
  intro entries r
  have hsorted : jsonFiles entries = [("FAQ.json", "true".toUTF8), ("faq.json", "[1]".toUTF8)] :=
    List.mergeSort_of_pairwise (by decide +kernel)
  refine ⟨rfl, by decide, ?_⟩
  rw [discover, hsorted]
  decide +kernel

end Graft.Registry
