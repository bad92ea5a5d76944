import PaymentService.Js.Settled
import PaymentService.Logger.Secrets

/-!
# Reading the log

A line of the log is the text of an object in which two properties are the texts of objects, and all
of them have parts that a client has sent. Whatever a client sends, a line can be parsed; what is
found under the names that the logger uses is what the logger has put there; and what is found in the
texts inside are the properties of the body and of the response, as the patterns show them. Only the
headers of a request can take the place of something else: they come after the time, the level and
the address, under whatever names they have.
-/

namespace PaymentService

variable {format : LogFormat} {number : List Char → ℚ}

/-! ## Values that can be written -/

/-- The data in a value can be written and read. -/
structure Loggable.Readable (format : LogFormat) (number : List Char → ℚ) (v : Loggable) : Prop where
  names : (v.properties.map Prod.fst).Nodup
  values : ∀ key value, (key, .data value) ∈ v.properties → Js.Readable format.number number value

theorem readable_of_mask {key : String} {value : Property} {shown : Js}
    (h : mask key value = .data shown)
    (hvalue : ∀ v, value = .data v → Js.Readable format.number number v) :
    Js.Readable format.number number shown := by
  unfold mask at h
  split at h
  · obtain rfl := Property.data.inj h
    exact True.intro
  · split at h
    · split at h
      · obtain rfl := Property.data.inj h
        exact True.intro
      · exact hvalue _ h
    · exact hvalue _ h

namespace CustomLogger

theorem properties_of_write {properties : List (String × Property)} {data : Js}
    (h : (Loggable.object properties).write = .ok data) :
    ∃ fields, data = .obj fields ∧ properties = fields.map fun (key, v) ↦ (key, .data v) := by
  have hfields : ∀ fields, properties.mapM Property.write = .ok fields →
      properties = fields.map fun (key, v) ↦ (key, .data v) := by
    clear h
    induction properties with
    | nil =>
      intro fields h
      obtain rfl := Except.ok.inj h
      rfl
    | cons property properties ih =>
      intro fields h
      rw [List.mapM_cons] at h
      obtain ⟨key, v | _⟩ := property
      · rcases hrest : properties.mapM Property.write with e | rest
        · rw [hrest] at h
          cases h
        · rw [hrest] at h
          obtain rfl := Except.ok.inj h
          rw [List.map_cons, ← ih rest hrest]
      · cases h
  rw [Loggable.write] at h
  rcases hmap : properties.mapM Property.write with e | fields
  · rw [hmap] at h
    cases h
  · rw [hmap] at h
    obtain rfl := Except.ok.inj h
    exact ⟨fields, rfl, hfields fields hmap⟩

theorem lookup_map_data (fields : List (String × Js)) (key : String) :
    (fields.map fun (key, v) ↦ (key, Property.data v)).lookup key =
      (fields.lookup key).map Property.data := by
  induction fields with
  | nil => rfl
  | cons field fields ih =>
    rw [List.map_cons, List.lookup_cons, List.lookup_cons, ih]
    rcases key == field.1 <;> rfl

/-- What is read of a list of properties under a name. -/
def readAt (properties : List (String × Property)) (key : String) : Js :=
  match properties.lookup key with
  | some (.data v) => v.copy
  | _ => .undefined

theorem read_of_write {properties : List (String × Property)} {data : Js}
    (h : (Loggable.object properties).write = .ok data)
    (hreadable : (Loggable.object properties).Readable format number) :
    Js.Readable format.number number data ∧ ∀ key, data.copy.prop key = readAt properties key := by
  obtain ⟨fields, rfl, rfl⟩ := properties_of_write h
  have hnames : (fields.map Prod.fst).Nodup := by
    have hsame := hreadable.names
    rwa [Loggable.properties, List.map_map] at hsame
  have hfields : Js.ReadableFields format.number number fields :=
    Js.readableFields_iff.mpr fun field hfield ↦
      hreadable.values field.1 field.2 (List.mem_map.mpr ⟨field, hfield, rfl⟩)
  have hdata : Js.Readable format.number number (.obj fields) := ⟨hnames, hfields⟩
  refine ⟨hdata, fun key ↦ ?_⟩
  rw [Js.prop_copy hdata, Js.prop_obj, readAt, lookup_map_data]
  rcases fields.lookup key with _ | v <;> rfl

/-! ## Masked values -/

theorem lookup_masked (v : Loggable) (key : String) :
    (masked v).properties.lookup key =
      if key = "__proto__" then none else (v.properties.lookup key).map (mask key) := by
  have hlookup : ∀ properties : List (String × Property),
      ((properties.map fun p ↦ (p.1, mask p.1 p.2)).filter (·.1 ≠ "__proto__")).lookup key =
        if key = "__proto__" then none else (properties.lookup key).map (mask key) := by
    intro properties
    induction properties with
    | nil => split <;> rfl
    | cons property properties ih =>
      rw [List.map_cons, List.filter_cons, List.lookup_cons]
      by_cases hkey : key = property.1
      · subst hkey
        rw [beq_self_eq_true]
        split
        · next hproto =>
          rw [List.lookup_cons, beq_self_eq_true, if_neg (by simpa using hproto)]
          rfl
        · next hproto =>
          have hproto' : property.1 = "__proto__" := by simpa using hproto
          rw [ih, if_pos hproto', if_pos hproto']
      · rw [beq_eq_false_iff_ne.mpr hkey]
        split
        · rw [List.lookup_cons, beq_eq_false_iff_ne.mpr hkey]
          exact ih
        · exact ih
  exact hlookup v.properties

theorem readable_masked {v : Loggable} (hv : v.Readable format number) :
    (masked v).Readable format number where
  names := by
    have hnames : (v.properties.map fun p ↦ (p.1, mask p.1 p.2)).map Prod.fst =
        v.properties.map Prod.fst := by
      rw [List.map_map]
      rfl
    have hsublist := (List.filter_sublist (p := fun p : String × Property ↦ p.1 ≠ "__proto__")
      (l := v.properties.map fun p ↦ (p.1, mask p.1 p.2))).map Prod.fst
    rw [hnames] at hsublist
    exact hsublist.nodup hv.names
  values := by
    intro key shown hmem
    obtain ⟨old, hold, heq⟩ := List.mem_map.mp (List.mem_filter.mp hmem).1
    obtain ⟨rfl, hmask⟩ := Prod.mk.inj heq
    refine readable_of_mask hmask fun value hvalue ↦ hv.values old.1 value ?_
    rw [← hvalue]
    exact hold

/-- The properties as the patterns show them, and under other names something else. -/
structure ShownAs (properties : List (String × Property)) (other : String → Js) (w : Js) :
    Prop where
  shown : ∀ key value, (key, value) ∈ properties → key ≠ "__proto__" →
    ∃ shown, mask key value = .data shown ∧ w.prop key = shown.copy
  rest : ∀ key, key ∉ properties.map Prod.fst ∨ key = "__proto__" → w.prop key = other key

theorem shownAs_of_lookup {v : Loggable} (hv : v.Readable format number)
    {properties base : List (String × Property)}
    (hlookup : ∀ key, properties.lookup key =
      ((masked v).properties.lookup key).or (base.lookup key))
    (hwritten : ∀ property ∈ properties, property.2 ≠ .cyclic) {w : Js}
    (hread : ∀ key, w.prop key = readAt properties key) :
    ShownAs v.properties (readAt base) w where
  shown := by
    intro key value hmem hproto
    have hfound : properties.lookup key = some (mask key value) := by
      rw [hlookup, lookup_masked, if_neg hproto, Js.lookup_of_mem hv.names hmem]
      rfl
    obtain ⟨before, after, hsplit, -⟩ := List.lookup_eq_some_iff.mp hfound
    have hproperty : (key, mask key value) ∈ properties := by
      rw [hsplit]
      exact List.mem_append_right _ List.mem_cons_self
    rcases hmask : mask key value with shown | _
    · refine ⟨shown, rfl, ?_⟩
      rw [hread, readAt, hfound, hmask]
    · exact absurd hmask (hwritten _ hproperty)
  rest := by
    intro key hkey
    have hnone : (masked v).properties.lookup key = none := by
      rw [lookup_masked]
      split
      · rfl
      · next hproto =>
        rw [Js.lookup_eq_none (hkey.resolve_right hproto)]
        rfl
    rw [hread, readAt, readAt, hlookup, hnone, Option.none_or]

theorem shownAs_of_write_masked {v : Loggable} (hv : v.Readable format number) {data : Js}
    (h : (masked v).write = .ok data) :
    Js.Readable format.number number data ∧
      ShownAs v.properties (fun _ ↦ .undefined) data.copy := by
  obtain ⟨hreadable, hread⟩ := read_of_write h (readable_masked hv)
  have hlookup : ∀ key, (masked v).properties.lookup key =
      ((masked v).properties.lookup key).or (([] : List (String × Property)).lookup key) := by
    intro key
    rw [List.lookup_nil, Option.or_none]
  exact ⟨hreadable, shownAs_of_lookup hv hlookup
    (fun property hmem ↦ Loggable.not_cyclic_of_write h hmem) hread⟩

theorem shownAs_of_write_foldl {v : Loggable} (hv : v.Readable format number)
    {base : List (String × Property)} (hbase : (Loggable.object base).Readable format number)
    {data : Js}
    (h : (Loggable.object ((masked v).properties.foldl setProperty base)).write = .ok data) :
    Js.Readable format.number number data ∧ ShownAs v.properties (readAt base) data.copy := by
  have hmasked := readable_masked hv
  have hreadable : (Loggable.object ((masked v).properties.foldl setProperty base)).Readable
      format number := by
    refine ⟨Js.nodup_foldl_setField hbase.names _, fun key value hmem ↦ ?_⟩
    rcases mem_foldl_setProperty hmem with hmem | hmem
    · exact hbase.values key value hmem
    · exact hmasked.values key value hmem
  obtain ⟨hdata, hread⟩ := read_of_write h hreadable
  refine ⟨hdata, ?_⟩
  exact shownAs_of_lookup hv (fun key ↦ Js.lookup_foldl_setField hmasked.names base key)
    (fun property hmem ↦ Loggable.not_cyclic_of_write h hmem) hread

/-! ## A line -/

theorem exists_of_bind {ε α β : Type} {x : Except ε α} {f : α → Except ε β} {b : β}
    (h : x >>= f = .ok b) : ∃ a, x = .ok a ∧ f a = .ok b := by
  rcases x with e | a
  · cases h
  · exact ⟨a, rfl, h⟩

/-- The properties of the value are replaced: it is no text, or one that is JSON. -/
def Replaced (v : Loggable) : Prop := ∀ s, v = .data (.str s) → Js.isJson s = true

theorem eq_masked {v m : Loggable} (hmap : mapObjectWithConfig patterns v.orEmpty = .ok m) :
    m = masked v ∨ ∃ s, m = .data (.str s) ∧ ¬Replaced v := by
  have hreplaced : mapObjectWithConfig patterns v.orEmpty = replaceAll patterns v.orEmpty ∨
      ∃ s, v = .data (.str s) ∧ Js.isJson s = false ∧ m = .data (.str s) := by
    unfold mapObjectWithConfig at hmap ⊢
    split at hmap
    · next s hs =>
      split at hmap
      · next hjson =>
        rw [hs]
        exact Or.inl (if_pos hjson)
      · next hjson =>
        refine Or.inr ⟨s, ?_, Bool.eq_false_iff.mpr hjson, (hs.symm.trans (Except.ok.inj hmap)).symm⟩
        rcases v with v | properties
        · rw [Loggable.orEmpty] at hs
          split at hs
          · exact hs
          · cases hs
        · cases hs
    · next hs => exact Or.inl rfl
  rcases hreplaced with hreplace | ⟨s, rfl, hjson, rfl⟩
  · rw [hreplace] at hmap
    by_cases hmaskable : ∀ property ∈ v.properties, Maskable property.1 property.2
    · rw [replaceAll_of_maskable hmaskable] at hmap
      exact Or.inl (Except.ok.inj hmap).symm
    · push Not at hmaskable
      obtain ⟨property, hproperty, hnot⟩ := hmaskable
      rw [replaceAll_of_not_maskable hproperty hnot] at hmap
      cases hmap
  · refine Or.inr ⟨s, rfl, fun h ↦ ?_⟩
    rw [h s rfl] at hjson
    cases hjson

/-- A text that can be parsed, and that shows a value unless it is a text itself and no JSON. -/
def TextShows (number : List Char → ℚ) (v : Loggable) (logged : Js) : Prop :=
  ∃ text w, logged = .str text ∧ Js.parse number text = some w ∧
    (Replaced v → ShownAs v.properties (fun _ ↦ .undefined) w)

theorem textShows_of_stringifyMasked {v m : Loggable} {logged : Js}
    (hv : v.Readable format number) (hmap : mapObjectWithConfig patterns v.orEmpty = .ok m)
    (h : stringifyMasked format m = .ok logged) : TextShows number v logged := by
  obtain ⟨data, hwrite, h⟩ := exists_of_bind h
  obtain rfl := Except.ok.inj h
  obtain ⟨hdefined, hreadable, hshown⟩ : Js.isDefined data = true ∧
      Js.Readable format.number number data ∧
        (Replaced v → ShownAs v.properties (fun _ ↦ .undefined) data.copy) := by
    rcases eq_masked hmap with rfl | ⟨s, rfl, hnot⟩
    · obtain ⟨fields, rfl, -⟩ := properties_of_write hwrite
      obtain ⟨hreadable, hshown⟩ := shownAs_of_write_masked hv hwrite
      exact ⟨rfl, hreadable, fun _ ↦ hshown⟩
    · obtain rfl := Except.ok.inj hwrite
      exact ⟨rfl, True.intro, fun h ↦ absurd h hnot⟩
  obtain ⟨text, htext⟩ : ∃ text, Js.stringify format.number "" data = some text := by
    rw [← Option.isSome_iff_exists, Js.stringify, Js.isSome_write, hdefined]
  have hgap : Js.Space "".toList := Js.space_nil
  exact ⟨text, data.copy, by rw [htext]; rfl, Js.parse_stringify hgap hreadable htext, hshown⟩

/-- What the logger puts before the headers. -/
def headerBase (format : LogFormat) (logger : CustomLogger) (timestamp : Date) :
    List (String × Property) :=
  [("timestamp", .data (.str (format.toISOString timestamp))), ("level", .data (.str "info")),
    ("ipAddess", .data (textOrUndefined logger.ipAddress))]

/-- What a line says about a request. -/
structure Tells (format : LogFormat) (number : List Char → ℚ) (logger : CustomLogger)
    (req : LogRequest) (execTime : ℤ) (timestamp : Date) (v : Js) : Prop where
  url : v.prop "url" = .str req.rawUri
  traceId : v.prop "trace_id" = .str logger.traceId
  method : v.prop "method" = .str req.method
  header : ShownAs req.reqHeader.properties (readAt (headerBase format logger timestamp))
    (v.prop "header")
  execTime : (v.prop "body").prop "execTime" = .num execTime
  reqBody : TextShows number req.reqBody ((v.prop "body").prop "reqBody")
  respBody : TextShows number req.respBody ((v.prop "body").prop "respBoy")

theorem readable_headerBase (logger : CustomLogger) (timestamp : Date) :
    (Loggable.object (headerBase format logger timestamp)).Readable format number where
  names := by
    show List.Nodup ["timestamp", "level", "ipAddess"]
    decide
  values := by
    intro key value hmem
    have hmem' : (key, .data value) ∈ headerBase format logger timestamp := hmem
    simp only [headerBase, List.mem_cons, List.not_mem_nil, or_false, Prod.mk.injEq] at hmem'
    rcases hmem' with ⟨-, heq⟩ | ⟨-, heq⟩ | ⟨-, heq⟩
    · rw [Property.data.inj heq]
      exact True.intro
    · rw [Property.data.inj heq]
      exact True.intro
    · rw [Property.data.inj heq]
      cases logger.ipAddress <;> exact True.intro

/-- A line that has been printed can be parsed and tells what was logged. -/
theorem tells_of_request {logger : CustomLogger} {req : LogRequest} {execTime : ℤ}
    {timestamp : Date} {line : String}
    (hline : request patterns format logger req execTime timestamp = .ok line)
    (hexec : Js.Literal format.number number execTime)
    (hreplaced : Replaced req.reqHeader)
    (hheader : req.reqHeader.Readable format number) (hbody : req.reqBody.Readable format number)
    (hresp : req.respBody.Readable format number) :
    ∃ v, Js.parse number line = some v ∧
      Tells format number logger req execTime timestamp v := by
  rw [request] at hline
  obtain ⟨header, hheaderMap, hline⟩ := exists_of_bind hline
  obtain ⟨body, hbodyMap, hline⟩ := exists_of_bind hline
  obtain ⟨reqBody, hreqBody, hline⟩ := exists_of_bind hline
  obtain ⟨resp, hrespMap, hline⟩ := exists_of_bind hline
  obtain ⟨respBody, hrespBody, hline⟩ := exists_of_bind hline
  obtain ⟨headerData, hheaderWrite, hline⟩ := exists_of_bind hline
  obtain rfl := Except.ok.inj hline
  obtain rfl : header = masked req.reqHeader := by
    rcases eq_masked hheaderMap with heq | ⟨s, -, hnot⟩
    · exact heq
    · exact absurd hreplaced hnot
  obtain ⟨fields, rfl, -⟩ := properties_of_write hheaderWrite
  obtain ⟨hfields, hheaderShown⟩ :=
    shownAs_of_write_foldl hheader (readable_headerBase logger timestamp) hheaderWrite
  have hreqShown := textShows_of_stringifyMasked hbody hbodyMap hreqBody
  have hrespShown := textShows_of_stringifyMasked hresp hrespMap hrespBody
  obtain ⟨reqText, -, rfl, -⟩ := id hreqShown
  obtain ⟨respText, -, rfl, -⟩ := id hrespShown
  -- Both parts are as they are when they are parsed again.
  have hlogHeader := Js.settled_copy (.obj fields) hfields rfl
  have hlogBody : Js.Settled format.number number
      (.obj [("execTime", .num execTime), ("reqBody", .str reqText), ("respBoy", .str respText)]) :=
    ⟨⟨⟨by simp, hexec, True.intro, True.intro, True.intro⟩, rfl⟩, rfl⟩
  have hstr : ∀ s, Js.Settled format.number number (.str s) := fun s ↦ ⟨⟨True.intro, rfl⟩, rfl⟩
  have hline : Js.Settled format.number number
      (.obj [("url", .str req.rawUri), ("trace_id", .str logger.traceId),
        ("method", .str req.method), ("header", (Js.obj fields).copy),
        ("body", .obj [("execTime", .num execTime), ("reqBody", .str reqText),
          ("respBoy", .str respText)])]) := by
    apply Js.Settled.obj
    · simp
    · simp only [List.forall_mem_cons]
      exact ⟨hstr _, hstr _, hstr _, hlogHeader, hlogBody, fun f hf ↦ absurd hf List.not_mem_nil⟩
  obtain ⟨text, htext⟩ := Option.isSome_iff_exists.mp
    ((Js.isSome_write format.number "  " "" _).trans hline.isDefined)
  have hgap : Js.Space "  ".toList := by
    intro c hc
    have hspaces : "  ".toList = [' ', ' '] := rfl
    rw [hspaces] at hc
    exact Or.inl (by simpa using hc)
  have hparse := Js.parse_stringify hgap hline.readable htext
  rw [hline.copy_eq] at hparse
  have hprinted : (Js.stringify format.number "  " _).getD "" = text :=
    congrArg (fun line ↦ Option.getD line "") htext
  refine ⟨_, (congrArg (Js.parse number) hprinted).trans hparse, ?_⟩
  exact
    { url := rfl
      traceId := rfl
      method := rfl
      header := hheaderShown
      execTime := rfl
      reqBody := hreqShown
      respBody := hrespShown }

end CustomLogger

/-! ## What is printed for a request -/

/-- The properties of what can be read can be. -/
theorem readable_data {v : Js} (hv : Js.Readable format.number number v) :
    (Loggable.data v).Readable format number := by
  -- What an array or a text contributes is numbered.
  have hindexed : ∀ {α : Type} (f : α → Js) (xs : List α),
      (∀ x ∈ xs, Js.Readable format.number number (f x)) →
        (xs.mapIdx fun i x ↦ (toString i, f x)).map Prod.fst =
            (List.range xs.length).map toString ∧
          ∀ field ∈ xs.mapIdx fun i x ↦ (toString i, f x),
            Js.Readable format.number number field.2 := by
    intro α f xs hxs
    constructor
    · refine List.ext_getElem? fun i ↦ ?_
      rw [List.getElem?_map, List.getElem?_map, List.getElem?_mapIdx]
      rcases Nat.lt_or_ge i xs.length with hi | hi
      · rw [List.getElem?_eq_getElem hi, List.getElem?_range hi]
        rfl
      · rw [List.getElem?_eq_none hi, List.getElem?_eq_none (by simpa using hi)]
        rfl
    · intro field hfield
      obtain ⟨i, hi, rfl⟩ := List.mem_mapIdx.mp hfield
      exact hxs _ (List.getElem_mem hi)
  have hnodup : ∀ n, ((List.range n).map (toString : ℕ → String)).Nodup :=
    fun n ↦ List.nodup_range.map toString_injective
  obtain ⟨hnames, hvalues⟩ : (v.spread.map Prod.fst).Nodup ∧
      ∀ field ∈ v.spread, Js.Readable format.number number field.2 := by
    match v, hv with
    | .obj fields, hfields => exact ⟨hfields.1, Js.readableFields_iff.mp hfields.2⟩
    | .arr xs, hxs =>
      obtain ⟨hindex, hvalues⟩ := hindexed id xs (Js.readableItems_iff.mp hxs)
      exact ⟨hindex ▸ hnodup xs.length, hvalues⟩
    | .str s, _ =>
      obtain ⟨hindex, hvalues⟩ := hindexed (fun u ↦ .str (Js.ofUnit u).toString) (Js.codeUnits s)
        fun _ _ ↦ True.intro
      exact ⟨hindex ▸ hnodup (Js.codeUnits s).length, hvalues⟩
    | .undefined, _ | .null, _ | .bool _, _ | .num _, _ =>
      exact ⟨List.nodup_nil, fun field hfield ↦ absurd hfield List.not_mem_nil⟩
  refine ⟨?_, fun key value hmem ↦ ?_⟩
  · rw [Loggable.properties, List.map_map]
    exact hnames
  · obtain ⟨field, hfield, heq⟩ := List.mem_map.mp hmem
    obtain ⟨-, hvalue⟩ := Prod.mk.inj heq
    rw [← Property.data.inj hvalue]
    exact hvalues field hfield

namespace LoggerInterceptor

variable {req : HttpRequest} {statusCode : ℕ} {startTime : Date}

theorem request_of_mem_lines {respBody : Loggable} {moment : Moment} {line : String}
    (h : line ∈ (log patterns format req statusCode startTime respBody moment).lines) :
    CustomLogger.request patterns format moment.logger
      (createLogAppRequest req statusCode respBody) ((moment.now : ℤ) - startTime)
      moment.timestamp = .ok line := by
  unfold log at h
  split at h
  · next line' hline => rw [hline, List.mem_singleton.mp h]
  · cases h

theorem log_of_mem_lines {next : Emission Js} (hnext : next.lines = []) {logger : CustomLogger}
    {onNext onError : Moment} {line : String}
    (h : line ∈ ((intercept patterns format req statusCode startTime next logger).2 onNext
      onError).lines) :
    (∃ value, next.result = .ok value ∧
        line ∈ (log patterns format req statusCode startTime (.data value) onNext).lines) ∨
      ∃ e, (next.result = .error e ∨ e = .typeError) ∧
        line ∈ (log patterns format req statusCode startTime e.loggable onError).lines := by
  have hafter : ∀ e : Failure,
      line ∈ ((log patterns format req statusCode startTime e.loggable onError).after
        (⟨.error e, []⟩ : Emission Js)).lines →
      line ∈ (log patterns format req statusCode startTime e.loggable onError).lines := by
    intro e hline
    unfold Emission.after at hline
    split at hline
    · rwa [List.append_nil] at hline
    · exact hline
  obtain ⟨result, lines⟩ := next
  obtain rfl : lines = [] := hnext
  rcases result with e | value
  · exact Or.inr ⟨e, Or.inl rfl, hafter e h⟩
  rcases hhealth : Js.includes req.url "health" with _ | _
  · simp only [intercept, Emission.tap, hhealth, Bool.false_eq_true, if_false, Emission.after,
      List.nil_append] at h
    rcases log_cases (.data value) onNext with ⟨-, -, hlog⟩ | ⟨-, hlog⟩
    · rw [hlog] at h
      exact Or.inl ⟨value, rfl, h⟩
    · rw [hlog] at h
      rcases List.mem_append.mp h with h | h
      · exact Or.inl ⟨value, rfl, h⟩
      · exact Or.inr ⟨.typeError, Or.inr rfl, hafter .typeError h⟩
  · simp only [intercept, Emission.tap, hhealth, if_true, Emission.after] at h
    cases h

/-- Every line that is printed for a request can be parsed, whatever the request and its outcome
contain, and tells both: the body and the outcome as the patterns show them, the address and the
method as they came, and the headers as they came in front of everything they share a name with. -/
theorem lines_told (format : LogFormat) (number : List Char → ℚ) (req : HttpRequest)
    (statusCode : ℕ) (startTime : Date) (next : Emission Js) (hnext : next.lines = [])
    (logger : CustomLogger) (onNext onError : Moment)
    (hexec : ∀ moment ∈ [onNext, onError],
      Js.Literal format.number number (((moment.now : ℤ) - startTime : ℤ) : ℚ))
    (hnames : (req.headers.map Prod.fst).Nodup)
    (hbody : Js.Readable format.number number req.body)
    (hvalue : ∀ value, next.result = .ok value → Js.Readable format.number number value)
    (herror : ∀ e, next.result = .error e → e.loggable.Readable format number) :
    ∀ line ∈ ((intercept patterns format req statusCode startTime next logger).2 onNext
        onError).lines,
      ∃ v outcome moment, Js.parse number line = some v ∧
        ((∃ value, next.result = .ok value ∧ outcome = .data value ∧ moment = onNext) ∨
          ∃ e, (next.result = .error e ∨ e = .typeError) ∧ outcome = e.loggable ∧
            moment = onError) ∧
        CustomLogger.Tells format number moment.logger (createLogAppRequest req statusCode outcome)
          ((moment.now : ℤ) - startTime) moment.timestamp v := by
  have horEmpty : ∀ {v : Loggable}, v.Readable format number → v.orEmpty.Readable format number := by
    intro v hv
    refine ⟨?_, ?_⟩
    · rw [v.properties_orEmpty]
      exact hv.names
    · rw [v.properties_orEmpty]
      exact hv.values
  have hheaders : Js.Readable format.number number
      (.obj (req.headers.map fun header ↦ (header.1, header.2.toJs))) := by
    refine ⟨by rwa [List.map_map], Js.readableFields_iff.mpr fun field hfield ↦ ?_⟩
    obtain ⟨⟨name, value⟩, -, rfl⟩ := List.mem_map.mp hfield
    rcases value with text | texts
    · exact True.intro
    · refine Js.readableItems_iff.mpr fun x hx ↦ ?_
      obtain ⟨text, -, rfl⟩ := List.mem_map.mp hx
      exact True.intro
  have htells : ∀ {outcome : Loggable} {moment : Moment} {line : String},
      outcome.Readable format number → moment ∈ [onNext, onError] →
        line ∈ (log patterns format req statusCode startTime outcome moment).lines →
          ∃ v, Js.parse number line = some v ∧
            CustomLogger.Tells format number moment.logger
              (createLogAppRequest req statusCode outcome) ((moment.now : ℤ) - startTime)
              moment.timestamp v := by
    intro outcome moment line houtcome hmoment hline
    exact CustomLogger.tells_of_request (request_of_mem_lines hline) (hexec moment hmoment)
      (fun s h ↦ by cases h) (readable_data hheaders) (horEmpty (readable_data hbody))
      (horEmpty houtcome)
  intro line hline
  rcases log_of_mem_lines hnext hline with ⟨value, hresult, hlog⟩ | ⟨e, he, hlog⟩
  · obtain ⟨v, hparse, hv⟩ := htells (readable_data (hvalue value hresult)) (by simp) hlog
    exact ⟨v, .data value, onNext, hparse, Or.inl ⟨value, hresult, rfl, rfl⟩, hv⟩
  · have houtcome : e.loggable.Readable format number := by
      rcases he with he | rfl
      · exact herror e he
      · exact ⟨List.nodup_nil, fun key value hmem ↦ absurd hmem List.not_mem_nil⟩
    obtain ⟨v, hparse, hv⟩ := htells houtcome (by simp) hlog
    exact ⟨v, e.loggable, onError, hparse, Or.inr ⟨e, he, rfl, rfl⟩, hv⟩

end LoggerInterceptor

/-! ## What is printed for a message -/

/-- The last part of the address of a queue. -/
def queueName : Option String → String
  | none => "-"
  | some queueUrl =>
    if queueUrl = "" then "-"
    else String.ofList ((queueUrl.toList.splitOn '/').getLast?.getD [])

/-- The request that is logged for a message. -/
def outgoing (queueUrl : Option String) (message : String) : LogRequest where
  method := "OUTGOING"
  uri := queueName queueUrl
  rawUri := queueName queueUrl
  reqHeader := .object []
  reqBody := .data (.str message)
  respStatus := 200
  respBody := .object []

/-- `logSqsSender(queueUrl, message, startExecTime)` when the clock shows `now`. The time of the
start is logged as the time that was taken. -/
def logSqsSender (format : LogFormat) (queueUrl : Option String) (message : String)
    (startExecTime now : Date) : Except Failure String :=
  CustomLogger.request patterns format {} (outgoing queueUrl message)
    (if startExecTime = 0 then now else startExecTime : Date) now

/-- A message is always logged, in a line that can be parsed. -/
theorem told_of_logSqsSender (queueUrl : Option String) (message : String) (startExecTime now : Date)
    (hexec : Js.Literal format.number number
      (((if startExecTime = 0 then now else startExecTime : Date) : ℤ) : ℚ)) :
    ∃ line v, logSqsSender format queueUrl message startExecTime now = .ok line ∧
      Js.parse number line = some v ∧
      CustomLogger.Tells format number {} (outgoing queueUrl message)
        (if startExecTime = 0 then now else startExecTime : Date) now v := by
  have hempty : (Loggable.object []).Harmless := fun property h ↦ absurd h List.not_mem_nil
  have hreadable : (Loggable.object []).Readable format number :=
    ⟨List.nodup_nil, fun key value hmem ↦ absurd hmem List.not_mem_nil⟩
  have hmessage : Js.Readable format.number number (.str message) := True.intro
  have hheader : (outgoing queueUrl message).reqHeader.Harmless := hempty
  unfold logSqsSender
  generalize (if startExecTime = 0 then now else startExecTime : Date) = execTime at hexec ⊢
  rcases CustomLogger.request_cases format {} execTime now hheader with
    ⟨-, -, line, hline⟩ | ⟨hnot, -⟩
  · obtain ⟨v, hparse, htells⟩ := CustomLogger.tells_of_request hline hexec
      (fun s h ↦ by cases h) hreadable (readable_data hmessage) hreadable
    exact ⟨line, v, hline, hparse, htells⟩
  · exact absurd ⟨Loggable.harmless_str message, hempty⟩ hnot

theorem units_of_textShows {message : String} {logged : Js} (hjson : Js.isJson message = true)
    (h : CustomLogger.TextShows number (.data (.str message)) logged) :
    ∃ text w, logged = .str text ∧ Js.parse number text = some w ∧
      ∀ i (hi : i < (Js.codeUnits message).length),
        w.prop (toString i) = .str (Js.ofUnit (Js.codeUnits message)[i]).toString := by
  obtain ⟨text, w, hlogged, hparse, hshows⟩ := h
  have hreplaced : CustomLogger.Replaced (.data (.str message)) := by
    intro s hs
    obtain rfl := Js.str.inj (Loggable.data.inj hs)
    exact hjson
  refine ⟨text, w, hlogged, hparse, fun i hi ↦ ?_⟩
  have hmem : (toString i, Property.data (.str (Js.ofUnit (Js.codeUnits message)[i]).toString)) ∈
      unitsOf message := List.mem_mapIdx.mpr ⟨i, hi, rfl⟩
  obtain ⟨-, hmask, hproto⟩ := mask_unitsOf hmem
  have hproperties := hshows hreplaced
  rw [properties_str] at hproperties
  obtain ⟨shown, hshown, hprop⟩ := hproperties.shown _ _ hmem hproto
  obtain rfl := Property.data.inj (hmask.symm.trans hshown)
  exact hprop

/-! ### A request that looks like the log -/

namespace Shop

/-- A header is named like a property of the log, and the note ends like a text of it. -/
def oddRequest : HttpRequest where
  method := "POST"
  url := "/payment/pay"
  hostname := some "shop.test"
  path := "/payment/pay"
  headers := [("level", .text "fatal")]
  body := .obj [("password", .str "first"), ("note", .str "\x22\x7d\n\x22level\x22")]
  remoteAddress := some "10.0.0.1"
  joined header hheader _ := ⟨"fatal", by rw [List.mem_singleton.mp hheader]⟩

def oddLines : List String :=
  ((LoggerInterceptor.intercept patterns logFormat oddRequest 200 0 ⟨.ok (.str "id"), []⟩ {}).2
    ⟨1, 1, {}⟩ ⟨1, 1, {}⟩).lines

end Shop

/-- The level is the one that was sent, the note is as it was sent, and the password is not told. -/
theorem odd_request_told :
    ∃ line ∈ Shop.oddLines, ∃ v text w, Js.parse Js.natural line = some v ∧
      (v.prop "header").prop "level" = .str "fatal" ∧
      (v.prop "body").prop "reqBody" = .str text ∧ Js.parse Js.natural text = some w ∧
      w.prop "note" = .str "\x22\x7d\n\x22level\x22" ∧ w.prop "password" = .str "****" := by
  obtain ⟨line, hline⟩ : ∃ line, line ∈ Shop.oddLines :=
    List.exists_mem_of_length_pos (by decide +kernel)
  have hexec : Js.Literal Shop.logFormat.number Js.natural (((1 : ℤ) - (0 : ℕ) : ℤ) : ℚ) :=
    Js.literal_natural (fun _ ↦ rfl) ['1']
  have hbody : Js.Readable Shop.logFormat.number Js.natural Shop.oddRequest.body :=
    ⟨by simp, True.intro, True.intro, True.intro⟩
  have hvalue : ∀ value, (⟨.ok (.str "id"), []⟩ : Emission Js).result = .ok value →
      Js.Readable Shop.logFormat.number Js.natural value := by
    intro value h
    obtain rfl := Except.ok.inj h
    exact True.intro
  have herror : ∀ e, (⟨.ok (.str "id"), []⟩ : Emission Js).result = .error e →
      e.loggable.Readable Shop.logFormat Js.natural := fun e h ↦ by cases h
  obtain ⟨v, outcome, moment, hparse, -, htells⟩ := LoggerInterceptor.lines_told Shop.logFormat
    Js.natural Shop.oddRequest 200 0 ⟨.ok (.str "id"), []⟩ rfl {} ⟨1, 1, {}⟩ ⟨1, 1, {}⟩
    (by simpa using hexec) (by simp [Shop.oddRequest]) hbody hvalue herror line hline
  obtain ⟨level, hlevel, hshown⟩ := htells.header.shown "level" (.data (.str "fatal"))
    List.mem_cons_self (by decide)
  obtain ⟨text, w, htext, hw, hbodyShown⟩ := htells.reqBody
  have hproperties := hbodyShown fun s h ↦ by cases h
  obtain ⟨note, hnote, hnoteShown⟩ := hproperties.shown "note"
    (.data (.str "\x22\x7d\n\x22level\x22")) (List.mem_cons_of_mem _ List.mem_cons_self) (by decide)
  obtain ⟨password, hpassword, hpasswordShown⟩ := hproperties.shown "password"
    (.data (.str "first")) List.mem_cons_self (by decide)
  have hlevelMask : mask "level" (.data (.str "fatal")) = .data (.str "fatal") := rfl
  have hnoteMask : mask "note" (.data (.str "\x22\x7d\n\x22level\x22")) =
      .data (.str "\x22\x7d\n\x22level\x22") := rfl
  have hpasswordMask : mask "password" (.data (.str "first")) = .data (.str "****") := rfl
  obtain rfl := Property.data.inj (hlevelMask.symm.trans hlevel)
  obtain rfl := Property.data.inj (hnoteMask.symm.trans hnote)
  obtain rfl := Property.data.inj (hpasswordMask.symm.trans hpassword)
  exact ⟨line, hline, v, text, w, hparse, hshown, htext, hw, hnoteShown, hpasswordShown⟩

end PaymentService
