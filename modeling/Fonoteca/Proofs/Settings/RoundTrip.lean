import Fonoteca.Proofs.Text.Encoding
import Fonoteca.Proofs.Toml.Lines
import Fonoteca.Settings.Basic

/-!
# Reading back settings

The document of some settings is read as these settings: each text is read back, whatever is in it,
and what is not written is what the settings have to begin with.

* `textLine` and `textEntry` are the line of a text that need not be there, and what is read of it.
* `linesUpTo_document` reads the lines of a document, `ofTable?_documentLines` takes the settings
  from them.
* **`parse?_of_render`** puts these together.
-/

set_option autoImplicit false

namespace Fonoteca
namespace Settings

open Toml (Line linesUpTo IsBare)

/-! ## The lines of the document -/

/-- The line of a text, if there is one. -/
def textLine (name : String) (value : Option String) : String :=
  (value.map (line name)).getD ""

/-- The entry of a text, if there is one. -/
def textEntry (name : String) (value : Option String) : List Line :=
  (value.map fun v => .entry [name] (.text v)).toList

theorem toList_line (name value : String) :
    (line name value).toList =
      name.toList ++ ' ' :: '=' :: ' ' :: (Toml.writeChars value.toList ++ ['\n']) := by
  have hsign : " = ".toList = [' ', '=', ' '] := by decide +kernel
  have hbreak : "\n".toList = ['\n'] := by decide +kernel
  simp [line, Toml.write, hsign, hbreak]

/-- A path is written as a text that spells it. -/
theorem exists_of_pathLine {name text : String} {p : Option Path}
    (h : pathLine name p = some text) :
    ∃ value : Option String, p = value.map Path.ofString ∧ text = textLine name value := by
  cases p with
  | none => exact ⟨none, rfl, (Option.some.inj h).symm⟩
  | some p =>
    obtain ⟨value, hvalue, rfl⟩ := Option.map_eq_some_iff.1 h
    refine ⟨some value, ?_, rfl⟩
    rw [Option.map_some, Path.ofString, Text.Utf8.decode?_eq_some_iff.1 hvalue]

theorem linesUpTo_line {name : String} (h : IsBare name.toList) (value : String) (fuel : Nat)
    (rest : List Char) :
    linesUpTo (fuel + 1) ((line name value).toList ++ rest) =
      (linesUpTo fuel rest).map (.entry [name] (.text value) :: ·) := by
  have hread := Toml.linesUpTo_entry h fuel value.toList rest
  rw [String.ofList_toList, String.ofList_toList] at hread
  rw [toList_line]
  simpa using hread

theorem linesUpTo_textLine {name : String} (h : IsBare name.toList) (value : Option String)
    (fuel : Nat) (rest : List Char) :
    linesUpTo (fuel + value.toList.length) ((textLine name value).toList ++ rest) =
      (linesUpTo fuel rest).map (textEntry name value ++ ·) := by
  cases value with
  | none => cases hlines : linesUpTo fuel rest <;> simp [textLine, textEntry, hlines]
  | some value => exact linesUpTo_line h value fuel rest

/-- The lines of a document. -/
def documentLines (root : Option String) (extension : String) (database : Option String) :
    List Line :=
  .header ⟨["library"], false⟩ ::
    (textEntry "root" root ++ (.entry ["extension"] (.text extension) ::
      .header ⟨["database"], false⟩ :: textEntry "path" database))

theorem linesUpTo_nil (fuel : Nat) : linesUpTo fuel [] = some [] := by
  cases fuel <;> rfl

/-- The lines of a document are read one after the other. -/
theorem linesUpTo_document (root : Option String) (extension : String)
    (database : Option String) (fuel : Nat) :
    linesUpTo (fuel + database.toList.length + 1 + 1 + 1 + root.toList.length + 1)
        ("[library]\n" ++ textLine "root" root ++ line "extension" extension ++ "\n[database]\n" ++
          textLine "path" database).toList =
      some (documentLines root extension database) := by
  have hlibrary : "[library]\n".toList = '[' :: ("library".toList ++ [']', '\n']) := by
    decide +kernel
  have hdatabase : "\n[database]\n".toList = '\n' :: '[' :: ("database".toList ++ [']', '\n']) := by
    decide +kernel
  have hbare : ∀ name ∈ ["library", "root", "extension", "database", "path"],
      IsBare name.toList := by
    have hall : ∀ name ∈ ["library", "root", "extension", "database", "path"],
        name.toList ≠ [] ∧ name.toList.all Toml.isNameChar = true := by decide +kernel
    exact fun name hname => ⟨(hall name hname).1, List.all_eq_true.1 (hall name hname).2⟩
  have hpath := linesUpTo_textLine (hbare "path" (by simp)) database fuel []
  rw [List.append_nil] at hpath
  simp only [String.toList_append, hlibrary, hdatabase, List.cons_append, List.append_assoc,
    List.nil_append]
  rw [Toml.linesUpTo_header (hbare "library" (by simp)),
    linesUpTo_textLine (hbare "root" (by simp)), linesUpTo_line (hbare "extension" (by simp)),
    Toml.linesUpTo_break, Toml.linesUpTo_header (hbare "database" (by simp)), hpath, linesUpTo_nil]
  simp [documentLines]

/-- The settings are those that the lines say. -/
theorem ofTable?_documentLines (root : Option String) (extension : String)
    (database : Option String) :
    (Toml.Table.ofLines? (documentLines root extension database)).bind ofTable? =
      some ⟨root.map Path.ofString, extension, database.map Path.ofString⟩ := by
  cases root <;> cases database <;> rfl

/-! ## Settings and their document -/

/-- What a document of settings consists of. -/
theorem exists_of_render {s : Settings} {text : String} (h : s.render = some text) :
    ∃ root database : Option String,
      s = ⟨root.map Path.ofString, s.extension, database.map Path.ofString⟩ ∧
      text = "[library]\n" ++ textLine "root" root ++ line "extension" s.extension ++
        "\n[database]\n" ++ textLine "path" database := by
  obtain ⟨rootText, hrootText, h⟩ := Option.bind_eq_some_iff.1 h
  obtain ⟨databaseText, hdatabaseText, h⟩ := Option.bind_eq_some_iff.1 h
  obtain ⟨root, hroot, rfl⟩ := exists_of_pathLine hrootText
  obtain ⟨database, hdatabase, rfl⟩ := exists_of_pathLine hdatabaseText
  exact ⟨root, database, by rw [← hroot, ← hdatabase], (Option.some.inj h).symm⟩

/-- **The document of some settings is read as these settings.** -/
theorem parse?_of_render {s : Settings} {text : String} (h : s.render = some text) :
    parse? text = some s := by
  obtain ⟨root, database, hs, htext⟩ := exists_of_render h
  have hfirst : "[library]\n".toList = '[' :: "library]\n".toList := by decide +kernel
  obtain ⟨cs, hcs⟩ : ∃ cs, text.toList = '[' :: ("library]\n".toList ++ cs) := by
    rw [htext]
    simp only [String.toList_append, hfirst, List.append_assoc, List.cons_append]
    exact ⟨_, rfl⟩
  have hmark : Toml.dropMark text.toList = text.toList := by
    rw [hcs]
    rfl
  -- there are more characters than lines
  obtain ⟨fuel, hfuel⟩ : ∃ fuel, text.toList.length + 1 =
      fuel + database.toList.length + 1 + 1 + 1 + root.toList.length + 1 := by
    have hlength : "library]\n".toList.length = 9 := by decide +kernel
    have hroot : root.toList.length ≤ 1 := by cases root <;> simp
    have hdatabase : database.toList.length ≤ 1 := by cases database <;> simp
    refine ⟨text.toList.length - (database.toList.length + 3 + root.toList.length), ?_⟩
    rw [hcs, List.length_cons, List.length_append, hlength]
    omega
  have hlines := linesUpTo_document root s.extension database fuel
  rw [← htext, ← hfuel] at hlines
  have hread : Toml.parse? text =
      Toml.Table.ofLines? (documentLines root s.extension database) := by
    rw [Toml.parse?, hmark, hlines]
    rfl
  rw [parse?, hread, ofTable?_documentLines, ← hs]

/-- Settings have a document if their paths are texts. -/
theorem exists_render (root : Option String) (extension : String) (database : Option String) :
    ∃ text, render ⟨root.map Path.ofString, extension, database.map Path.ofString⟩ = some text := by
  have htext : ∀ (name : String) (value : Option String),
      pathLine name (value.map Path.ofString) = some (textLine name value) := by
    intro name value
    cases value with
    | none => rfl
    | some value =>
      rw [Option.map_some, pathLine, Path.toString?, Path.ofString,
        Text.Utf8.decode?_eq_some_iff.2 rfl]
      rfl
  rw [render]
  dsimp only
  rw [htext, htext]
  exact ⟨_, rfl⟩

end Settings
end Fonoteca
