import RouteAudit.Pattern.ListFile
import RouteAudit.Proofs.Remedy.Edits
import RouteAudit.Proofs.Text.Lines
import RouteAudit.Remedy.Listing

/-! # A listing is read back as a list of patterns

A text can be on a list if it is trimmed, has no line feed in it and is no comment; a carriage
return or any other separator may well stand inside. Remediation keeps texts that way and logs
no line feed, so in a listing every comment stays on its line and every remediated pattern on one
of its own (`parseList_listing`).
-/

namespace RouteAudit

open Text (isBlank)

namespace Pattern

/-- A text that a list of patterns can hold. -/
structure Listed (text : List Char) : Prop where
  trimmed : Text.trimChars text = text
  oneLine : '\n' ∉ text
  pattern : isPatternLine text

section

variable {text : List Char}

/-- What makes a trimmed line a pattern is how it starts. -/
theorem isPatternLine_iff :
    isPatternLine text ↔ text ≠ [] ∧ text.head? ≠ some '#' ∧ ¬ ['/', '/'] <+: text := by
  unfold isPatternLine
  split
  · simp
  · simp
  · simp
  next hnil hcomment hslashes =>
    refine iff_of_true rfl ⟨fun h => hnil h, ?_, ?_⟩
    · intro h
      cases text with
      | nil => cases h
      | cons c cs => exact hcomment cs (by rw [Option.some.inj h])
    · rintro ⟨cs, rfl⟩
      exact hslashes cs rfl

theorem isPatternLine_comment (cs : List Char) :
    isPatternLine (Text.trimChars ('#' :: cs)) = false := by
  obtain ⟨start, hstart⟩ := Text.trimChars_cons_of_not_blank (c := '#') (by decide) cs
  rw [hstart]
  rfl

/-- The patterns of a list that was written line by line. -/
theorem parseList_lines {texts : List (List Char)} (h : ∀ line ∈ texts, '\n' ∉ line) :
    parseList (String.ofList (texts.flatMap (· ++ ['\n']))) =
      ((texts.map Text.trimChars).filter isPatternLine).map String.ofList := by
  rw [parseList, String.toList_ofList, Text.trimmed_lines h]

theorem listed_of_mem_parseList {list pattern : String} (h : pattern ∈ parseList list) :
    Listed pattern.toList := by
  obtain ⟨text, htext, rfl⟩ := List.mem_map.mp h
  obtain ⟨htrimmed, hpattern⟩ := List.mem_filter.mp htext
  obtain ⟨line, hline, rfl⟩ := List.mem_map.mp htrimmed
  rw [String.toList_ofList]
  refine ⟨Text.trimChars_trimChars line, fun hnewline => ?_, hpattern⟩
  exact Text.newline_not_mem_of_mem_lines hline ((Text.trimChars_sublist line).subset hnewline)

theorem parseList_of_listed {patterns : List String} (h : ∀ p ∈ patterns, Listed p.toList) :
    parseList (String.ofList ((patterns.map String.toList).flatMap (· ++ ['\n']))) = patterns := by
  rw [parseList_lines]
  · have htrim : (patterns.map String.toList).map Text.trimChars = patterns.map String.toList := by
      rw [List.map_map]
      exact List.map_congr_left fun p hp => (h p hp).trimmed
    have hall : (patterns.map String.toList).filter isPatternLine = patterns.map String.toList := by
      rw [List.filter_eq_self, List.forall_mem_map]
      exact fun p hp => (h p hp).pattern
    rw [htrim, hall, List.map_map]
    exact List.map_id'' (fun p => String.ofList_toList) patterns
  · rw [List.forall_mem_map]
    exact fun p hp => (h p hp).oneLine

/-- The lists of patterns are the lists of texts that a list can hold. -/
theorem exists_parseList_eq_iff {patterns : List String} :
    (∃ list, parseList list = patterns) ↔ ∀ p ∈ patterns, Listed p.toList := by
  constructor
  · rintro ⟨list, rfl⟩ p hp
    exact listed_of_mem_parseList hp
  · exact fun h => ⟨_, parseList_of_listed h⟩

end

end Pattern

namespace Remedy

open Pattern (Listed isPatternLine parseList)

/-- Solid pieces in a text do not keep it from being on a list. -/
theorem Edited.listed {text candidate : List Char} (h : Edited text candidate)
    (hlisted : Listed text) : Listed candidate := by
  obtain ⟨hfirst, hlast⟩ := Text.trimChars_eq_self_iff.mp hlisted.trimmed
  obtain ⟨hsome, hcomment, hslashes⟩ := Pattern.isPatternLine_iff.mp hlisted.pattern
  refine ⟨Text.trimChars_eq_self_iff.mpr ⟨?_, ?_⟩, h.newline_not_mem hlisted.oneLine,
    Pattern.isPatternLine_iff.mpr ⟨?_, ?_, ?_⟩⟩
  · intro c hc
    rcases h.first hc with hold | hnew
    · exact hfirst c hold
    · exact hnew.1
  · intro c hc
    rcases h.last hc with hold | hnew
    · exact hlast c hold
    · exact hnew
  · rintro rfl
    exact hsome h.eq_nil
  · intro hc
    rcases h.first hc with hold | hnew
    · exact hcomment hold
    · exact hnew.2.1 rfl
  · -- No piece starts with a slash, so both slashes are old ones.
    rintro ⟨cs, rfl⟩
    obtain ⟨rest, rfl, hrest⟩ := h.behind_slash
    obtain ⟨rest', rfl, -⟩ := hrest.behind_slash
    exact hslashes ⟨rest', rfl⟩

/-! ## What is logged -/

/-- A text without a line feed. -/
def OneLine (text : String) : Prop := '\n' ∉ text.toList

theorem OneLine.of_chars {cs : List Char} (h : '\n' ∉ cs) : OneLine (String.ofList cs) := by
  rwa [OneLine, String.toList_ofList]

theorem OneLine.append {first second : String} (hfirst : OneLine first)
    (hsecond : OneLine second) : OneLine (first ++ second) := by
  rw [OneLine, String.toList_append, List.mem_append, not_or]
  exact ⟨hfirst, hsecond⟩

theorem oneLine_toString (n : Nat) : OneLine (toString n) := by
  rw [Nat.toString_eq_ofList_toDigits]
  refine .of_chars fun h => ?_
  have hdigit := Nat.isDigit_of_mem_toDigits (by decide) (by decide) h
  cases hdigit

/-- The segments that are named in notes are from a fixed list. -/
theorem oneLine_sensitiveSegment {text : List Char} {segment : String}
    (h : segment ∈ sensitiveSegments text) : OneLine segment := by
  have hall : ∀ name ∈ sensitiveNames, '\n' ∉ name.toList := by decide
  exact hall segment (List.contains_iff_mem.mp (List.mem_filter.mp h).2)

namespace Work

/-- The text can be on a list, and every message of the log stays on one line. -/
structure Listable (work : Work) : Prop where
  pattern : Listed work.pattern
  changes : ∀ change ∈ work.changes, OneLine change
  notes : ∀ note ∈ work.notes, OneLine note

section

variable {work : Work}

theorem Listable.change (h : work.Listable) {candidate : List Char} {description : String}
    (hedited : Edited work.pattern candidate) (hline : OneLine description) :
    (work.change candidate description).Listable := by
  unfold Work.change
  split
  next => exact h
  next =>
    dsimp only
    split
    next => exact h
    next =>
      refine ⟨hedited.listed h.pattern, fun change hchange => ?_, h.notes⟩
      rcases List.mem_append.mp hchange with hold | hnew
      · exact h.changes change hold
      · rwa [List.mem_singleton.mp hnew]

theorem Listable.note (h : work.Listable) {message : String} (hline : OneLine message) :
    (work.note message).Listable := by
  refine ⟨h.pattern, h.changes, fun note hnote => ?_⟩
  rcases List.mem_append.mp hnote with hold | hnew
  · exact h.notes note hold
  · rwa [List.mem_singleton.mp hnew]

theorem Listable.escapePipes (h : work.Listable) (before : Risk.Assessment) :
    (work.escapePipes before).Listable := by
  unfold Work.escapePipes
  split
  next => exact h
  next =>
    dsimp only
    split
    next => exact h
    next =>
      refine h.change (edited_escapePipes 0 _) ?_
      exact ((OneLine.of_chars (by decide)).append (oneLine_toString _)).append
        (.of_chars (by decide))

theorem Listable.boundTrailingWildcard (h : work.Listable) (before : Risk.Assessment) :
    (work.boundTrailingWildcard before).Listable := by
  unfold Work.boundTrailingWildcard
  dsimp only
  split
  next => exact h
  next =>
    split
    next head name hsplit =>
      refine h.change (edited_boundParam hsplit) ?_
      -- The name that is logged is a part of the text.
      have hname : OneLine (String.ofList name) := by
        obtain ⟨tail, htext, -⟩ := splitRepeatedParam?_spec hsplit
        have hline := h.pattern.oneLine
        rw [htext] at hline
        exact .of_chars fun hmem => hline (List.mem_append_left tail
          (List.mem_append_right head (List.mem_cons_of_mem ':' hmem)))
      exact (((OneLine.of_chars (by decide)).append hname).append (.of_chars (by decide))).append
        (.of_chars (by decide))
    next =>
      split
      next head hstar =>
        refine h.change (edited_boundStar hstar) ?_
        exact (OneLine.of_chars (by decide)).append (.of_chars (by decide))
      next => exact h

theorem Listable.expandDoubleWildcards (h : work.Listable) :
    work.expandDoubleWildcards.Listable := by
  unfold Work.expandDoubleWildcards
  dsimp only
  split
  next => exact h
  next =>
    refine h.change (edited_expandRuns _) ?_
    exact ((((OneLine.of_chars (by decide)).append (oneLine_toString _)).append
      (.of_chars (by decide))).append (oneLine_toString _)).append (.of_chars (by decide))

theorem Listable.noteSensitiveSegments (h : work.Listable) :
    work.noteSensitiveSegments.Listable := by
  unfold Work.noteSensitiveSegments
  have hsegments : ∀ segment ∈ sensitiveSegments work.pattern, OneLine segment :=
    fun _ hsegment => oneLine_sensitiveSegment hsegment
  generalize sensitiveSegments work.pattern = segments at hsegments
  induction segments generalizing work with
  | nil => exact h
  | cons segment segments ih =>
      obtain ⟨hsegment, hsegments⟩ := List.forall_mem_cons.mp hsegments
      refine ih (h.note ?_) hsegments
      exact ((OneLine.of_chars (by decide)).append hsegment).append (.of_chars (by decide))

theorem Listable.encodeTraversal (h : work.Listable) (before : Risk.Assessment) :
    (work.encodeTraversal before).Listable := by
  unfold Work.encodeTraversal
  split
  next => exact h.change (edited_encodeTraversal _) (.of_chars (by decide))
  next => exact h

theorem Listable.noteCredentials (h : work.Listable) (before : Risk.Assessment) :
    (work.noteCredentials before).Listable := by
  unfold Work.noteCredentials
  dsimp only
  split_ifs
  · exact (h.note (.of_chars (by decide))).note (.of_chars (by decide))
  · exact h.note (.of_chars (by decide))
  · exact h.note (.of_chars (by decide))
  · exact h

end

theorem listable_finish {pattern : String} (h : Listed pattern.toList) :
    (finish (.ofText pattern)).Listable := by
  have hstart : (start (.ofText pattern)).Listable := ⟨h, by rintro _ ⟨⟩, by rintro _ ⟨⟩⟩
  exact hstart.escapePipes _ |>.boundTrailingWildcard _ |>.expandDoubleWildcards
    |>.noteSensitiveSegments |>.encodeTraversal _ |>.noteCredentials _

end Work

/-! ## The listing -/

/-- A line that holds a comment. -/
def IsComment (line : String) : Prop := ∃ cs, line.toList = '#' :: cs ∧ '\n' ∉ cs

theorem IsComment.append {line text : String} (h : IsComment line) (htext : OneLine text) :
    IsComment (line ++ text) := by
  obtain ⟨cs, hline, hcs⟩ := h
  refine ⟨cs ++ text.toList, by rw [String.toList_append, hline]; rfl, ?_⟩
  rw [List.mem_append, not_or]
  exact ⟨hcs, htext⟩

theorem IsComment.not_pattern {line : String} (h : IsComment line) :
    isPatternLine (Text.trimChars line.toList) = false := by
  obtain ⟨cs, hline, -⟩ := h
  rw [hline, Pattern.isPatternLine_comment]

theorem IsComment.oneLine {line : String} (h : IsComment line) : OneLine line := by
  obtain ⟨cs, hline, hcs⟩ := h
  rw [OneLine, hline, List.mem_cons, not_or]
  exact ⟨by decide, hcs⟩

section

variable {pattern : String}

theorem listed_fixed (h : Listed pattern.toList) : Listed (remediate pattern).fixed.toList := by
  rw [remediate, String.toList_ofList]
  exact (Work.listable_finish h).pattern

/-- Everything before the last line of a result is a comment. -/
theorem lines_remediate (h : Listed pattern.toList) :
    ∃ comments : List String, (remediate pattern).lines = comments ++ [(remediate pattern).fixed] ∧
      ∀ line ∈ comments, IsComment line := by
  have hwork := Work.listable_finish h
  have hash : IsComment "# " := ⟨[' '], rfl, by decide⟩
  have hwas : IsComment "# was: " := ⟨_, rfl, by decide⟩
  refine ⟨_, rfl, fun line hline => ?_⟩
  rcases List.mem_append.mp hline with hlogged | hchanged
  · rcases List.mem_append.mp hlogged with hline | hline
    · obtain ⟨note, hnote, rfl⟩ := List.mem_map.mp hline
      exact hash.append (hwork.notes note hnote)
    · obtain ⟨change, hchange, rfl⟩ := List.mem_map.mp hline
      exact hash.append (hwork.changes change hchange)
  · split at hchanged
    next =>
      rw [List.mem_singleton.mp hchanged]
      exact hwas.append h.oneLine |>.append (.of_chars (by decide)) |>.append (oneLine_toString _)
        |>.append (.of_chars (by decide)) |>.append (oneLine_toString _)
        |>.append (.of_chars (by decide))
    next => cases hchanged

/-- Of the lines of a result, the last one is a pattern. -/
theorem patternLines_remediate (h : Listed pattern.toList) :
    (((remediate pattern).lines.map String.toList).map Text.trimChars).filter isPatternLine =
      [(remediate pattern).fixed.toList] := by
  obtain ⟨comments, hlines, hcomments⟩ := lines_remediate h
  have hfixed := listed_fixed h
  have hnone : ((comments.map String.toList).map Text.trimChars).filter isPatternLine = [] := by
    rw [List.filter_eq_nil_iff, List.forall_mem_map, List.forall_mem_map]
    intro line hline
    rw [(hcomments line hline).not_pattern]
    exact Bool.false_ne_true
  rw [hlines, List.map_append, List.map_append, List.filter_append, hnone, List.nil_append,
    List.map_singleton, List.map_singleton, hfixed.trimmed, List.filter_singleton, hfixed.pattern]
  rfl

end

theorem listing_eq (results : List Result) : listing results =
    String.ofList (((results.flatMap Result.lines).map String.toList).flatMap (· ++ ['\n'])) := by
  apply String.toList_injective
  rw [listing, String.toList_join, String.toList_ofList, List.flatMap_map, List.flatMap_map]
  simp only [String.toList_append]
  rfl

theorem parseList_of_remediated {patterns : List String} (h : ∀ p ∈ patterns, Listed p.toList) :
    parseList (listing (remediateAll patterns)) = patterns.map fun p => (remediate p).fixed := by
  rw [listing_eq, Pattern.parseList_lines, remediateAll]
  · induction patterns with
    | nil => rfl
    | cons pattern patterns ih =>
        obtain ⟨hpattern, hpatterns⟩ := List.forall_mem_cons.mp h
        rw [List.map_cons, List.flatMap_cons, List.map_append, List.map_append, List.filter_append,
          List.map_append, ih hpatterns, patternLines_remediate hpattern, List.map_singleton,
          String.ofList_toList]
        rfl
  · rw [List.forall_mem_map]
    intro line hline
    obtain ⟨result, hresult, hline⟩ := List.mem_flatMap.mp hline
    obtain ⟨pattern, hpattern, rfl⟩ := List.mem_map.mp hresult
    obtain ⟨comments, hlines, hcomments⟩ := lines_remediate (h pattern hpattern)
    rw [hlines, List.mem_append, List.mem_singleton] at hline
    rcases hline with hcomment | rfl
    · exact (hcomments line hcomment).oneLine
    · exact (listed_fixed (h pattern hpattern)).oneLine

/-- The lists of patterns are the lists of texts that are trimmed, on one line and no comments;
and the listing of what remediation makes of such a list is read back as the remediated patterns,
one for each pattern and in order. -/
theorem parseList_listing (patterns : List String) :
    ((∃ list, parseList list = patterns) ↔ ∀ p ∈ patterns, Listed p.toList) ∧
      ((∃ list, parseList list = patterns) →
        parseList (listing (remediateAll patterns)) =
          patterns.map fun p => (remediate p).fixed) :=
  ⟨Pattern.exists_parseList_eq_iff,
    fun hlist => parseList_of_remediated (Pattern.exists_parseList_eq_iff.mp hlist)⟩

/-- A pattern with a carriage return and a line separator in it makes its `was` line no second
line, and the pattern that starts with a wildcard still starts with what is no comment. -/
theorem odd_list_read_back :
    (∃ list, parseList list = ["/a\r\u2028/**", "**", "/../x"]) ∧
      parseList (listing (remediateAll ["/a\r\u2028/**", "**", "/../x"])) =
        ["/a\r\u2028/**", "**", "/../x"].map fun p => (remediate p).fixed := by
  have hlist : ∃ list, parseList list = ["/a\r\u2028/**", "**", "/../x"] :=
    ⟨"  /a\r\u2028/**\r\n# none\n**\n// none\n\t/../x", by decide⟩
  exact ⟨hlist, (parseList_listing _).2 hlist⟩

end Remedy

end RouteAudit
