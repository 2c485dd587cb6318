import DexListing.Proofs.Batch
import DexListing.Proofs.Rendering.LineBreak

namespace DexListing

theorem lineBreaks_hex (n : Nat) : lineBreaks (hex n) = 0 := by
  have plain : ∀ d < 16, Nat.digitChar d ≠ '\n' ∧ Nat.digitChar d ≠ '\r' := by decide
  rw [lineBreaks, List.countP_eq_zero]
  intro c hc
  obtain ⟨d, hd, rfl⟩ := exists_digit_of_mem_hex hc
  simp [plain d hd]

namespace FileError

theorem lineBreaks_escape (c : Char) : lineBreaks (escape c) = 0 := by
  unfold escape
  split
  any_goals decide
  split
  next printed =>
    -- A line feed or a carriage return is below the first printed character.
    rw [lineBreaks, Char.toString_eq_singleton, String.toList_singleton, List.countP_eq_zero]
    intro x hx
    obtain rfl := List.mem_singleton.1 hx
    rw [Bool.or_eq_true, decide_eq_true_eq, decide_eq_true_eq]
    rintro (rfl | rfl) <;> exact absurd printed.1 (by decide)
  next =>
    exact lineBreaks_append_of_zero
      (lineBreaks_append_of_zero (by decide) (lineBreaks_hex _)) (by decide)

theorem lineBreaks_quoted (s : String) : lineBreaks (quoted s) = 0 := by
  have escaped : lineBreaks (String.join (s.toList.map escape)) = 0 := by
    rw [lineBreaks_join, List.map_map, List.sum_eq_zero_iff_forall_eq_nat]
    intro n hn
    obtain ⟨c, -, rfl⟩ := List.mem_map.1 hn
    exact lineBreaks_escape c
  exact lineBreaks_append_of_zero (lineBreaks_append_of_zero (by decide) escaped) (by decide)

theorem lineBreaks_kind (e : FileError) : lineBreaks e.kind = 0 := by
  have identifier := List.all_eq_true.1 e.identifier
  rw [lineBreaks, List.countP_eq_zero]
  intro c hc
  have letter := identifier c hc
  rw [Bool.or_eq_true, decide_eq_true_eq, decide_eq_true_eq]
  rintro (rfl | rfl)
  · cases letter
  · cases letter

theorem lineBreaks_text (e : FileError) : lineBreaks e.text = 0 := by
  have opening : lineBreaks "Os \x7b code: " = 0 := by decide
  have kind : lineBreaks ", kind: " = 0 := by decide
  have message : lineBreaks ", message: " = 0 := by decide
  have closing : lineBreaks " \x7d" = 0 := by decide
  change lineBreaks ("Os \x7b code: " ++ toString e.code ++ ", kind: " ++ e.kind ++
    ", message: " ++ quoted e.message ++ " \x7d") = 0
  simp only [lineBreaks_append, opening, lineBreaks_natural, kind, e.lineBreaks_kind, message,
    lineBreaks_quoted, closing]

end FileError

namespace CommandLine

section Reading

variable {file : String → Except FileError Bytes} {args before after : List String}
  {name : String} {e : FileError}

theorem contents_of_readable {read : String → Bytes} (h : ∀ x ∈ args, file x = .ok (read x)) :
    contents file args = .ok (args.map fun x => (x, read x)) := by
  induction args with
  | nil => rfl
  | cons x args ih =>
      have hx : file x = .ok (read x) := h x List.mem_cons_self
      have rest := ih fun y hy => h y (List.mem_cons_of_mem x hy)
      rw [contents, hx, rest]
      rfl

theorem contents_of_unreadable (h : ∀ x ∈ before, ∃ b, file x = .ok b)
    (he : file name = .error e) : contents file (before ++ name :: after) = .error e := by
  induction before with
  | nil =>
      rw [List.nil_append, contents, he]
      rfl
  | cons x before ih =>
      obtain ⟨b, hb⟩ := h x List.mem_cons_self
      have rest := ih fun y hy => h y (List.mem_cons_of_mem x hy)
      rw [List.cons_append, contents, hb, rest]
      rfl

theorem exists_first_unreadable (h : ∃ x ∈ args, ∃ e, file x = .error e) :
    ∃ before name after e, args = before ++ name :: after ∧
      (∀ x ∈ before, ∃ b, file x = .ok b) ∧ file name = .error e := by
  induction args with
  | nil =>
      obtain ⟨_, hx, _⟩ := h
      cases hx
  | cons x args ih =>
      cases hx : file x with
      | error e => exact ⟨[], x, args, e, rfl, by simp, hx⟩
      | ok b =>
          have rest : ∃ y ∈ args, ∃ e, file y = .error e := by
            obtain ⟨y, hy, e, he⟩ := h
            rcases List.mem_cons.1 hy with rfl | hy
            · rw [hx] at he
              cases he
            · exact ⟨y, hy, e, he⟩
          obtain ⟨before, name, after, e, rfl, readable, he⟩ := ih rest
          refine ⟨x :: before, name, after, e, rfl, fun y hy => ?_, he⟩
          rcases List.mem_cons.1 hy with rfl | hy
          · exact ⟨b, hx⟩
          · exact readable y hy

end Reading

def printed (xs : List String) : String :=
  String.join (xs.map (· ++ "\n"))

theorem printed_append (xs ys : List String) : printed (xs ++ ys) = printed xs ++ printed ys := by
  rw [printed, List.map_append, String.join_append]
  rfl

theorem printed_flatMap {α : Type} (f : α → List String) (xs : List α) :
    printed (xs.flatMap f) = String.join (xs.map fun x => printed (f x)) := by
  induction xs with
  | nil => rfl
  | cons x xs ih => rw [List.flatMap_cons, printed_append, ih, List.map_cons, String.join_cons]

def classText (y : ClassListing) : String :=
  (match y.superclass with
    | some s => s!"Class: {y.name} extends {s} \x7b\n"
    | none => s!"Class: {y.name} \x7b\n") ++ y.bodyText ++ "\x7d\n"

def listingText (name : String) (d : Listing) : String :=
  s!"// {name} (version {versionText d.version})\n" ++ String.join (d.classes.map classText)

def failureText (name : String) (e : Error) : String :=
  s!"// {name} failed: {e.text}\n"

def abortText (e : FileError) : String :=
  s!"Aborted due to error: {e.text}\n"

theorem lineBreaks_abortText (e : FileError) : lineBreaks (abortText e) = 1 := by
  have opening : lineBreaks "Aborted due to error: " = 0 := by decide
  have feed : lineBreaks "\n" = 1 := by decide
  change lineBreaks ("Aborted due to error: " ++ e.text ++ "\n") = 1
  rw [lineBreaks_append, lineBreaks_append, opening, e.lineBreaks_text, feed]

theorem printed_classLines (y : ClassListing) : printed (classLines y) = classText y := by
  have body (opening : String) :
      printed (opening :: y.texts.map ("    " ++ ·) ++ ["\x7d"]) =
        opening ++ "\n" ++ y.bodyText ++ "\x7d\n" := by
    simp [printed, ClassListing.bodyText, String.join_append, Function.comp_def,
      String.append_assoc]
  rw [classLines, body, classText]
  cases y.superclass with
  | none => exact congrArg (· ++ y.bodyText ++ "\x7d\n") (String.append_assoc ..)
  | some s => exact congrArg (· ++ y.bodyText ++ "\x7d\n") (String.append_assoc ..)

theorem printed_decodedLines (name : String) (d : Listing) :
    printed (decodedLines (name, d)) = listingText name d := by
  rw [decodedLines, printed, List.map_cons, String.join_cons, ← printed, printed_flatMap]
  simp only [printed_classLines]
  exact congrArg (· ++ String.join (d.classes.map classText)) (String.append_assoc ..)

theorem failureLine_append (name : String) (e : Error) :
    failureLine (name, e) ++ "\n" = failureText name e :=
  rfl

section Reported

variable (inputs : List Batch.Input) (o : Options)

def failed : Nat :=
  inputs.countP fun x => (failure (x.run o).outcome).isSome

theorem length_failures_inputs : (Batch.ofInputs inputs o).failures.length = failed inputs o := by
  rw [Batch.failures_ofInputs, List.length_filterMap_eq_countP, failed]
  simp only [Option.isSome_map]

theorem failed_eq_zero_iff :
    failed inputs o = 0 ↔ ∀ x ∈ inputs, ∃ d, (x.run o).outcome = .ok d := by
  rw [failed, List.countP_eq_zero]
  simp only [Option.not_isSome_iff_eq_none, failure_eq_none_iff]

theorem printed_decoded_inputs :
    printed ((Batch.ofInputs inputs o).decoded.flatMap decodedLines) =
      String.join (inputs.filterMap fun x =>
        (x.run o).outcome.toOption.map (listingText x.id)) := by
  rw [printed_flatMap, Batch.decoded_ofInputs, List.map_filterMap]
  simp only [Option.map_map, Function.comp_def, printed_decodedLines]

theorem printed_failures_inputs :
    printed ((Batch.ofInputs inputs o).failures.map failureLine) =
      String.join (inputs.filterMap fun x =>
        (failure (x.run o).outcome).map (failureText x.id)) := by
  rw [printed, Batch.failures_ofInputs, List.map_map, List.map_filterMap]
  simp only [Option.map_map, Function.comp_def, failureLine_append]

theorem printed_batchLines :
    printed (batchLines (Batch.ofInputs inputs o)) =
      String.join (inputs.filterMap fun x =>
          (x.run o).outcome.toOption.map (listingText x.id)) ++
        String.join (inputs.filterMap fun x =>
          (failure (x.run o).outcome).map (failureText x.id)) ++
        summaryLine (failed inputs o) ++ "\n" := by
  rw [batchLines, printed_append, printed_append, printed_decoded_inputs, printed_failures_inputs,
    length_failures_inputs]
  simp [printed, String.append_assoc]

theorem summaryLine_of_ne_zero {n : Nat} (h : n ≠ 0) :
    summaryLine n = s!"Done, {n} file(s) could not be decoded" :=
  if_neg h

theorem summaryLine_eq_iff {n : Nat} : summaryLine n = "All done" ↔ n = 0 := by
  constructor
  · intro h
    by_contra hn
    rw [summaryLine_of_ne_zero hn] at h
    have longer := congrArg String.length h
    simp only [String.length_append] at longer
    have last : (toString " file(s) could not be decoded").length = 29 := rfl
    have done : "All done".length = 8 := rfl
    omega
  · rintro rfl
    rfl

end Reported

section Session

variable {host : Host} {args : List String}

theorem lines_of_error {e : FileError} (h : contents host.file args = .error e) :
    lines host args = [s!"Aborted due to error: {e.text}"] := by
  cases args with
  | nil => cases h
  | cons x args =>
      rw [lines, h]
      rfl

theorem output_of_error {e : FileError} (h : contents host.file args = .error e) :
    output host args = abortText e := by
  rw [output, lines_of_error h, List.map_singleton, String.join_cons, String.join_nil,
    String.append_empty]
  rfl

theorem output_of_ok {files : List (String × Bytes)} (given : args ≠ [])
    (h : contents host.file args = .ok files) :
    output host args =
      printed (batchLines (Batch.ofInputs (host.inputs files) host.options)) := by
  rw [output, lines, if_neg (mt List.isEmpty_iff.1 given), h]
  rfl

def Aborts (file : String → Except FileError Bytes) (args : List String) : Prop :=
  ∃ before name after e, args = before ++ name :: after ∧
    (∀ x ∈ before, ∃ b, file x = .ok b) ∧ file name = .error e ∧
    ∀ other : Host, (∀ x ∈ before, ∃ b, other.file x = .ok b) → other.file name = .error e →
      run other args = ⟨abortText e, 0⟩

theorem aborts_of_unreadable {file : String → Except FileError Bytes}
    (h : ∃ x ∈ args, ∃ e, file x = .error e) : Aborts file args := by
  obtain ⟨before, name, after, e, rfl, readable, he⟩ := exists_first_unreadable h
  refine ⟨before, name, after, e, rfl, readable, he, fun other hr hn => ?_⟩
  rw [run, output_of_error (contents_of_unreadable hr hn)]

structure Reports (inputs : List Batch.Input) (o : Options) (session : Session) : Prop where
  session : session =
    ⟨String.join (inputs.filterMap fun x =>
        (x.run o).outcome.toOption.map (listingText x.id)) ++
      String.join (inputs.filterMap fun x =>
        (failure (x.run o).outcome).map (failureText x.id)) ++
      summaryLine (failed inputs o) ++ "\n", 0⟩
  clean : summaryLine (failed inputs o) = "All done" ↔
    ∀ x ∈ inputs, ∃ d, (x.run o).outcome = .ok d
  counted : (¬ ∀ x ∈ inputs, ∃ d, (x.run o).outcome = .ok d) →
    summaryLine (failed inputs o) = s!"Done, {failed inputs o} file(s) could not be decoded"

theorem reports_of_readable {read : String → Bytes} (given : args ≠ [])
    (h : ∀ x ∈ args, host.file x = .ok (read x)) :
    Reports (host.inputs (args.map fun x => (x, read x))) host.options (run host args) where
  session := by
    rw [run, output_of_ok given (contents_of_readable h), printed_batchLines]
  clean := summaryLine_eq_iff.trans (failed_eq_zero_iff _ _)
  counted some := summaryLine_of_ne_zero fun none => some ((failed_eq_zero_iff _ _).1 none)

/-- A session tells of one unreadable argument and of nothing else, or of what every argument
decodes to with the workers that the machine has for it. -/
theorem session_is_all_or_nothing (host : Host) (args : List String) (given : args ≠ []) :
    ((∃ x ∈ args, ∃ e, host.file x = .error e) → Aborts host.file args) ∧
      (∀ e, lineBreaks (abortText e) = 1) ∧
      (∀ read : String → Bytes, (∀ x ∈ args, host.file x = .ok (read x)) →
        Reports (host.inputs (args.map fun x => (x, read x))) host.options (run host args)) ∧
      ∀ others, (run host others).exitCode = 0 :=
  ⟨aborts_of_unreadable, lineBreaks_abortText, fun _ => reports_of_readable given, fun _ => rfl⟩

theorem session_is_all_or_nothing_mixed :
    let file : String → Except FileError Bytes
      | "good" => .ok (Layout.encode Layout.sample).toArray
      | "bad" => .ok overlong
      | _ => .error .notFound
    let host : Host := ⟨file, some 8, fun i => if i = 0 then .unstarted "" else .cutAt 1⟩
    run host ["good", "lost", "bad"] =
        ⟨"Aborted due to error: Os \x7b code: 2, kind: NotFound, " ++
          "message: \"No such file or directory\" \x7d\n", 0⟩ ∧
      run host ["bad", "good", "bad"] =
        ⟨"// good (version Some(35))\n" ++
          "Class: LMain; \x7b\n    v1 = \"né\x00😀\";\n    // Unknown opcode: 0xff\n" ++
          "    return;\n\x7d\nClass: LMain; extends LMain; \x7b\n\x7d\n" ++
          "// bad failed: MalformedVarint: uleb128 at 0x78 exceeds 5 bytes " ++
          "for string data at 0x78\n" ++
          "// bad failed: MalformedVarint: uleb128 at 0x7d exceeds 5 bytes " ++
          "for string data at 0x7d\n" ++
          "Done, 2 file(s) could not be decoded\n", 0⟩ := by
  intro file host
  constructor
  · obtain ⟨before, name, after, e, hargs, readable, he, told⟩ :=
      (session_is_all_or_nothing host ["good", "lost", "bad"] (by simp)).1
        ⟨"lost", by simp, .notFound, rfl⟩
    -- Only the second argument stands after readable ones and cannot be read itself.
    match before with
    | [] =>
        obtain ⟨rfl, _⟩ := List.cons.inj hargs
        cases he
    | [_] =>
        obtain ⟨_, rest⟩ := List.cons.inj hargs
        obtain ⟨rfl, _⟩ := List.cons.inj rest
        cases he
        exact (told host readable rfl).trans (by decide +kernel)
    | _ :: x :: _ =>
        obtain ⟨_, rest⟩ := List.cons.inj hargs
        obtain ⟨rfl, _⟩ := List.cons.inj rest
        obtain ⟨_, hb⟩ := readable "lost" (by simp)
        cases hb
  · let read : String → Bytes := fun x =>
      if x = "good" then (Layout.encode Layout.sample).toArray else overlong
    -- The three runs stay variables here, so that no check of this step has to decode.
    have session (x y z : Batch.Input) (o : Options) (d : Listing) (e e' : Error)
        (hx : (x.run o).outcome = .error e) (hy : (y.run o).outcome = .ok d)
        (hz : (z.run o).outcome = .error e') (told : Session) (h : Reports [x, y, z] o told) :
        told = ⟨listingText y.id d ++ (failureText x.id e ++ failureText z.id e') ++
          (summaryLine 2 ++ "\n"), 0⟩ := by
      rw [h.session]
      simp [failed, hx, hy, hz, Except.toOption, failure, String.append_assoc]
    have readable : ∀ x ∈ ["bad", "good", "bad"], host.file x = .ok (read x) := by
      simp [host, file, read]
    have reports := (session_is_all_or_nothing host _ (by simp)).2.2.1 read readable
    have told := session ⟨"bad", overlong, .unstarted ""⟩
      ⟨"good", (Layout.encode Layout.sample).toArray, .cutAt 1⟩ ⟨"bad", overlong, .cutAt 1⟩ ⟨8⟩
      Layout.sample.listing ⟨.overlongVarint 0x78, [.stringData 0x78]⟩
      ⟨.overlongVarint 0x7D, [.stringData 0x7D]⟩ (by decide +kernel)
      (Layout.outcome_disassemble_sample _ _) (by decide +kernel) _ reports
    have listed : listingText "good" Layout.sample.listing =
        "// good (version Some(35))\n" ++
          "Class: LMain; \x7b\n    v1 = \"né\x00😀\";\n    // Unknown opcode: 0xff\n" ++
          "    return;\n\x7d\nClass: LMain; extends LMain; \x7b\n\x7d\n" := by
      decide +kernel
    have failedFirst : failureText "bad" ⟨.overlongVarint 0x78, [.stringData 0x78]⟩ =
        "// bad failed: MalformedVarint: uleb128 at 0x78 exceeds 5 bytes " ++
          "for string data at 0x78\n" := by
      decide +kernel
    have failedSecond : failureText "bad" ⟨.overlongVarint 0x7D, [.stringData 0x7D]⟩ =
        "// bad failed: MalformedVarint: uleb128 at 0x7d exceeds 5 bytes " ++
          "for string data at 0x7d\n" := by
      decide +kernel
    have summary : summaryLine 2 ++ "\n" = "Done, 2 file(s) could not be decoded\n" := by
      decide +kernel
    rw [told, listed, failedFirst, failedSecond, summary]
    simp only [String.append_assoc]

end Session

end CommandLine

end DexListing
