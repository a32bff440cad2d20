import Fonoteca.Proofs.CommandLine.Editing
import Fonoteca.Proofs.Disk.Standing

/-!
# What a command finds in a file

To open one library, folders and files may be made and another library may be logged from then on,
but whatever is already in a file of a library stays there.  So a command that opens the library in
a file has the tables that the last one left there.

* `Disk.HasTables` says that the file at a place holds a library with some tables.
* `HasTables.putAt` : a node that is put elsewhere, or the same library once more, leaves it there.
* **`Disk.HasTables.tables_eq_of_libraryIn?`** : a library is opened with the tables in its file.
-/

set_option autoImplicit false

namespace Fonoteca
namespace Disk

open Database

variable {d d' : Disk Content} {place : List Bytes} {t : Tables}

/-- The file at a place holds a library with the given tables. -/
def HasTables (d : Disk Content) (place : List Bytes) (t : Tables) : Prop :=
  ∃ logged, d.root.lookup place = some (.file (.database t logged))

namespace HasTables

/-- What is put at the place of no folder leaves a library where it is, unless it takes its
place. -/
theorem putAt (h : d.HasTables place t) {q : List Bytes} {n : Node Content}
    (hfree : d.root.standing? q ≠ some .folder)
    (hself : q = place → ∃ logged, n = .file (.database t logged)) :
    (d.putAt q n).HasTables place t := by
  obtain ⟨logged, hfile⟩ := h
  by_cases hq : q = place
  · obtain ⟨logged', rfl⟩ := hself hq
    exact ⟨logged', hq ▸ Entries.lookup_putAt_self (hq ▸ hfile) _⟩
  · have hbelow : ¬ q <+: place := by
      intro hbelow
      refine hfree (Entries.standing?_of_below ?_ hbelow (Ne.symm hq))
      rw [Entries.standing?_of_lookup hfile]
      simp
    exact ⟨logged, Entries.lookup_putAt_of_not_below hbelow hfile n⟩

/-- So does what is put where nothing is. -/
theorem putNew (h : d.HasTables place t) {q : List Bytes} (hnone : d.root.lookup q = none)
    (n : Node Content) : (d.putAt q n).HasTables place t := by
  refine h.putAt (by simp [Entries.standing?_eq_none_iff.2 hnone]) ?_
  rintro rfl
  obtain ⟨_, hfile⟩ := h
  rw [hnone] at hfile
  cases hfile

/-! ## Folders -/

theorem makeFolder (h : d.HasTables place t) {p : Path} (hd : d.makeFolder p = .ok d') :
    d'.HasTables place t := by
  rw [Disk.makeFolder] at hd
  obtain ⟨q, -, hd⟩ := bind_eq_ok hd
  split at hd
  · cases hd
  · next hnone =>
    cases hd
    exact h.putNew hnone _

theorem makeFirst (h : d.HasTables place t) (ps : List Path) :
    (Disk.makeFirst ps d).2.HasTables place t := by
  induction ps generalizing d with
  | nil => exact h
  | cons p holders ih =>
    rw [Disk.makeFirst]
    split
    · exact h
    split
    · next hd => exact h.makeFolder hd
    · -- the folders above are made first, and then this one
      have hholders := ih h
      split
      · next heq => exact heq ▸ hholders
      · next heq =>
        rw [heq] at hholders
        split
        · next hd => exact makeFolder hholders hd
        · exact hholders
    · exact h

theorem makeDatabaseFolder (h : d.HasTables place t) (file : Path) :
    (d.makeDatabaseFolder file).2.HasTables place t := by
  rw [Disk.makeDatabaseFolder]
  split
  · exact h
  · next folder _ =>
    have hfolders := h.makeFirst folder.ancestors
    rw [← Disk.makeFolders] at hfolders
    split <;> next heq =>
      rw [heq] at hfolders
      exact hfolders

/-! ## Databases -/

theorem connect (h : d.HasTables place t) {o : Opening} {c : Connection}
    (hd : d.connect o = .ok (c, d')) : d'.HasTables place t := by
  obtain ⟨-, ⟨-, -, rfl⟩ | ⟨-, names, -, -, ⟨-, rfl⟩ | ⟨hnone, -, -, rfl⟩⟩⟩ := connect_cases hd
  · exact h
  · exact h
  · exact h.putNew hnone _

theorem startLog (h : d.HasTables place t) {c : Connection} (hd : d.startLog c = .ok d') :
    d'.HasTables place t := by
  obtain rfl | ⟨names, content, tables, -, hfile, hcontent, rfl⟩ := startLog_cases hd
  · exact h
  have ⟨logged, hthere⟩ := h
  refine h.putAt (by simp [Entries.standing?_of_lookup hfile, Node.standing]) ?_
  rintro rfl
  rw [hthere] at hfile
  cases hfile
  rcases hcontent with ⟨bytes, hbytes, -⟩ | hsame
  · cases hbytes
  · cases hsame
    exact ⟨true, rfl⟩

theorem createDatabase (h : d.HasTables place t) (a : Address) :
    (d.createDatabase a).2.HasTables place t := by
  rcases createDatabase_cases d a with hsame | ⟨o, c, d₁, hconnect, hconnected | hlog⟩
  · rwa [hsame]
  · rw [hconnected]
    exact h.connect hconnect
  · exact (h.connect hconnect).startLog hlog

/-- The tables of a store come from its file. -/
theorem tables_eq_of_setUp (h : d.HasTables place t) {c : Connection} {store : Store}
    {logged : Bool} (hd : d.setUp c = .ok (store, .file place logged, d')) : store.tables = t := by
  obtain ⟨logged', hfile⟩ := h
  obtain ⟨hc, -⟩ := setUp_eq_ok hd
  rw [Disk.setUp, hc] at hd
  dsimp only at hd
  rw [hfile] at hd
  dsimp only at hd
  split at hd
  · cases hd
  · cases hd
    rfl

/-- **A library is opened with the tables that are in its file.** -/
theorem tables_eq_of_libraryIn? (h : d.HasTables place t) {file : Path} {store : Store}
    {logged : Bool} (hlib : d.libraryIn? file = some (store, .file place logged, d')) :
    store.tables = t := by
  have hfolder := h.makeDatabaseFolder file
  rw [libraryIn?] at hlib
  split at hlib
  · cases hlib
  next heq =>
  rw [heq] at hfolder
  split at hlib
  · cases hlib
  next hopen =>
  cases hlib
  obtain ⟨a, o, c, d₁, d₂, -, -, hmade, hconnect, hsetUp⟩ := openDatabase_eq_ok hopen
  have hready : d₁.HasTables place t := by
    rcases hmade with rfl | hcreate
    · exact hfolder
    · have hcreated := hfolder.createDatabase a
      rwa [hcreate] at hcreated
  exact (hready.connect hconnect).tables_eq_of_setUp hsetUp

end HasTables
end Disk
end Fonoteca
