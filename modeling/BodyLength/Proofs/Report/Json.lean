import BodyLength.Proofs.Json.Decode
import BodyLength.Proofs.Json.Values
import BodyLength.Report.Json
/-!
# Entries are read back as they were written

The reader of an entry sets the file apart from all other members and looks through those again
for the fields of a report. That takes the writer's members apart into the file and the report
they were joined from, whatever the names are: a report has no member called `file` and no two
of one name, and every number of it is within the range it is checked for.
-/

namespace BodyLength

namespace FunctionReport

theorem variant_name (s : Severity) :
    JsonValue.variant Severity.name Severity.all (.scalar (.text s.name)) = .ok s := by
  cases s <;> rfl

/-- The fields of a report come back from its members. -/
theorem ofMembers_members (r : FunctionReport) : ofMembers r.members = .ok r := by
  simp only [ofMembers, members, List.foldlM_cons, List.foldlM_nil, Fields.add, Fields.fill,
    JsonValue.string, JsonValue.word32_toNat, JsonValue.word64_toNat, variant_name,
    Except.map, bind, Except.bind, pure, Except.pure, Fields.report, Fields.require]

theorem ne_file_of_mem_members (r : FunctionReport) : ∀ m ∈ r.members, m.1 ≠ "file" := by
  simp [members]

end FunctionReport

namespace Entry

/-- Members that are not the file are all kept for the report. -/
theorem readMembers_of_ne_file (file : Option String) {ms : List (JsonKey × JsonNode)}
    {vs : List (String × JsonValue)} (h : JsonNode.readMembers ms = .ok vs)
    (hfile : ∀ v ∈ vs, v.1 ≠ "file") : readMembers file ms = .ok (file, vs) := by
  induction ms generalizing vs with
  | nil =>
    cases h
    rfl
  | cons m ms ih =>
    obtain ⟨x, vs, hx, hms, rfl⟩ := JsonNode.readMembers_cons_eq_ok h
    have hkey : m.1.name ≠ "file" := hfile _ List.mem_cons_self
    have hmore := ih hms fun v hv => hfile v (List.mem_cons_of_mem _ hv)
    simp only [readMembers, hkey, if_false, hx, hmore, bind, Except.bind, pure, Except.pure]

/-- The reader of an entry finds it in any node that has its value. -/
theorem read_of_readValue {n : JsonNode} {e : Entry} (h : n.readValue = .ok e.value) :
    read n = .ok e := by
  obtain ⟨start, ms, tail, stop, rfl, hms, htail⟩ := JsonNode.eq_of_readValue_object h
  cases ms with
  | nil => cases hms
  | cons m ms =>
    obtain ⟨x, vs, hx, hvs, heq⟩ := JsonNode.readMembers_cons_eq_ok hms
    obtain ⟨⟨hkey, rfl⟩, rfl⟩ : ("file" = m.1.name ∧ _ = x) ∧ e.report.members = vs := by
      simpa using heq
    obtain ⟨_, _, hfile⟩ := JsonNode.eq_of_readValue_scalar hx
    -- The first member is the file, and no other is called so.
    have hmembers := readMembers_of_ne_file (some e.file) hvs e.report.ne_file_of_mem_members
    simp only [read, readMembers, ← hkey, if_true, hfile, JsonNode.readString, hmembers, htail,
      bind, Except.bind, FunctionReport.ofMembers_members]

theorem fits_value (d : Nat) (e : Entry) : e.value.Fits (d + 1) := by
  refine .object fun m hm => ?_
  simp only [FunctionReport.members, List.mem_cons, List.not_mem_nil, or_false] at hm
  obtain rfl | rfl | rfl | rfl | rfl | rfl | rfl := hm
  · exact .scalar trivial
  · exact .scalar trivial
  · exact .scalar (isExact_toNat (Nat.lt_trans (UInt32.toNat_lt _) (by decide)))
  · exact .scalar (isExact_toNat (Nat.lt_trans (UInt32.toNat_lt _) (by decide)))
  · exact .scalar (isExact_toNat (Nat.lt_trans (UInt32.toNat_lt _) (by decide)))
  · exact .scalar (isExact_toNat (UInt64.toNat_lt _))
  · exact .scalar trivial
where
  isExact_toNat {k : Nat} (h : k < UInt64.size) : (JsonScalar.integer k).IsExact :=
    ⟨by omega, Int.ofNat_le.mpr (Nat.le_sub_one_of_lt h)⟩

/-- Nothing is lost in the text of a list of entries: it is read, and as that list. -/
theorem parse_render (es : List Entry) : parse (render es) = .ok es := by
  have hfits : (JsonValue.array (es.map value)).Fits (JsonStep.depthLimit - 1) := .array <| by
    rintro _ hv
    obtain ⟨e, _, rfl⟩ := List.mem_map.mp hv
    exact fits_value _ e
  obtain ⟨n, hn, htext⟩ := JsonDocument.ofText_pretty hfits
  have hentries := JsonNode.readList_of_readValue value (fun _ _ => read_of_readValue) hn
  rw [parse, JsonDocument.decode, render, htext, hentries]
  rfl

end Entry

end BodyLength
