import RouteAudit.Storage.Files

/-! # What is read after a replacement

A file is only put where no directory stands, so what stood on the way to it still stands, and a
replacement that succeeded is what a reading finds.
-/

namespace RouteAudit.Storage

theorem fromUTF8?_toUTF8 (text : String) : String.fromUTF8? text.toUTF8 = some text := by
  have hvalid : text.toUTF8.IsValidUTF8 := text.isValidUTF8
  rw [String.fromUTF8?, dif_pos hvalid]
  rfl

theorem textOf?_toUTF8 (text : String) : textOf? text.toUTF8 = .ok text := by
  rw [textOf?, fromUTF8?_toUTF8]

namespace Files

section

variable {files : Files} {path : Path} {place other start next : Place} {node : Node} {step : Step}
  {content : ByteArray}

theorem lookup_put (h : other ≠ place) :
    (files.put place node).nodes.lookup other = files.nodes.lookup other := by
  have hfirst : (other == place) = false := beq_false_of_ne h
  rw [put, List.lookup_cons, hfirst]
  dsimp only
  induction files.nodes with
  | nil => rfl
  | cons entry nodes ih =>
      obtain ⟨known, kept⟩ := entry
      by_cases hknown : known = place
      · simp [hknown, List.lookup_cons, hfirst, ih]
      · simp [hknown, List.lookup_cons, ih]

theorem node?_put_of_ne (h : other ≠ place) :
    (files.put place node).node? other = files.node? other := by
  rw [node?, node?, lookup_put h]

/-- Nothing but a directory stands at the root and around the working directory. -/
theorem node?_put_self (h : files.node? place ≠ some .directory) :
    (files.put place node).node? place = some node := by
  by_cases hplace : place.isAround ∨ place = ["/"]
  · exact absurd (if_pos hplace) h
  · rw [node?, if_neg hplace, put, List.lookup_cons_self]

theorem directory_of_enter (h : files.enter start step = .ok next) :
    files.node? start = some .directory := by
  unfold enter at h
  split at h
  next => cases h
  next => cases h
  next => cases h
  next hnode _ => exact hnode

theorem enter_put (h : files.node? place ≠ some .directory)
    (henter : files.enter start step = .ok next) :
    (files.put place node).enter start step = .ok next := by
  have hne : start ≠ place := by
    rintro rfl
    exact h (directory_of_enter henter)
  rwa [enter, node?_put_of_ne hne]

theorem locate_put (h : files.node? place ≠ some .directory)
    (hlocate : files.locate path = .ok next) : (files.put place node).locate path = .ok next := by
  unfold locate at hlocate ⊢
  split at hlocate
  next => cases hlocate
  next hempty =>
    rw [if_neg hempty]
    generalize path.steps = steps at hlocate ⊢
    generalize path.start = start at hlocate ⊢
    induction steps generalizing start with
    | nil => exact hlocate
    | cons step steps ih =>
        rw [List.foldlM_cons] at hlocate ⊢
        cases henter : files.enter start step with
        | error fault =>
            rw [henter] at hlocate
            cases hlocate
        | ok middle =>
            rw [henter] at hlocate
            rw [enter_put h henter]
            exact ih middle hlocate

theorem asksDirectory_of_endsInName (h : path.endsInName) : path.asksDirectory = false := by
  rw [Path.endsInName, Bool.and_eq_true_iff] at h
  simpa using h.1

/-- What is written is read. -/
theorem read_write {written : Files} (h : files.write path content = some written) :
    written.read path = .ok content := by
  unfold write at h
  cases hlocate : files.locate path with
  | error fault => simp [hlocate, Except.toOption] at h
  | ok place =>
      simp only [hlocate, Except.toOption, Option.bind_eq_bind, Option.bind_some] at h
      split at h
      next hname =>
        obtain ⟨hname, hnode⟩ := Bool.and_eq_true_iff.mp hname
        have hplace : files.node? place ≠ some .directory := by
          intro hdirectory
          rw [hdirectory] at hnode
          exact absurd hnode (by decide)
        cases h
        simp [read, locate_put hplace hlocate, node?_put_self hplace,
          asksDirectory_of_endsInName hname, bind, Except.bind]
      next => cases h

/-- What a file was replaced by is read. -/
theorem read_replace (h : (files.replace path content).2 = none) :
    (files.replace path content).1.read path = .ok content := by
  unfold replace at h ⊢
  generalize files.makeDirectories path.start path.directorySteps = prepared at h ⊢
  obtain ⟨made, stands⟩ := prepared
  cases stands with
  | false => cases h
  | true =>
      dsimp only at h ⊢
      cases hwrite : made.write path content with
      | none =>
          rw [hwrite] at h
          cases h
      | some written => exact read_write hwrite

theorem readText_replace {text : String} (h : (files.replace path text.toUTF8).2 = none) :
    (files.replace path text.toUTF8).1.readText path = .ok text := by
  rw [readText, read_replace h]
  exact textOf?_toUTF8 text

end

end Files

end RouteAudit.Storage
