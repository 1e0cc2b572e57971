import Scanout.Proofs.Json.Singles
import Scanout.Proofs.Workload.Words

/-!
# Transcripts of workloads

A workload whose fields fit their words is written as a writable value, and reads back exactly if
all of its numbers are finite. The projection in use is lost. Each type of the transcript has the
same two lemmas: what is written is writable, and is read back.
-/

namespace Scanout

open Json Single

section Choices

lemma PixelSize.ofJson?_toJson (size : PixelSize) : ofJson? size.toJson = some size := by
  cases size <;> rfl

lemma WriteType.ofJson?_toJson (type : WriteType) : ofJson? type.toJson = some type := by
  cases type <;> rfl

lemma ProjectionKind.ofJson?_toJson (kind : ProjectionKind) : ofJson? kind.toJson = some kind := by
  cases kind <;> rfl

lemma Json.Writable.ofString {s : String} : (ofString s).Writable := .string s

end Choices

section Rects

variable {r : Rect}

lemma Rect.writable_toJson : r.toJson.Writable := by
  refine .zip fun value hvalue => ?_
  obtain ⟨i, -, rfl⟩ := List.mem_map.mp hvalue
  exact .ofInt

lemma Rect.ofJson?_toJson (h : r.InWords) : ofJson? r.toJson = some r := by
  have hread : ∀ i ∈ [r.left, r.top, r.right, r.bottom], signed32? (ofInt i) = some i :=
    fun i hi => signed32?_ofInt (h i hi).1 (h i hi).2
  simp only [List.forall_mem_cons] at hread
  obtain ⟨hleft, htop, hright, hbottom, -⟩ := hread
  rw [ofJson?, toJson, record?_ofMembers _ _ (by decide) rfl]
  simp [Record.required, Record.value?, hleft, htop, hright, hbottom]

end Rects

section Numbers

variable {m : Matrix} {s : Scroll} {t : Transform} {p : Projection}

/-- The numbers of an array read back exactly if they are finite. -/
lemma Json.list?_ofSingle {xs : List Single} (h : ∀ x ∈ xs, x.isFinite = true → x.ReadsBack) :
    list? single? (.array (xs.map .ofSingle)) = whenFinite xs xs := by
  rw [list?_map_whenFinite (fun x => [x]) fun x hx => single?_ofSingle (h x hx),
    List.flatMap_singleton']

lemma Json.writable_map_ofSingle {xs : List Single}
    (h : ∀ x ∈ xs, x.isFinite = true → x.ReadsBack) :
    (Json.array (xs.map .ofSingle)).Writable :=
  .array_map fun x hx => writable_ofSingle (h x hx)

lemma Matrix.writable_toJson (h : ∀ x ∈ m.components, x.isFinite = true → x.ReadsBack) :
    m.toJson.Writable := by
  refine .ofMembers (List.forall_mem_singleton.mpr (.array_map fun r hr => ?_))
  exact writable_map_ofSingle fun x hx => h x (List.mem_flatMap.mpr ⟨r, hr, hx⟩)

lemma Matrix.ofJson?_toJson (h : ∀ x ∈ m.components, x.isFinite = true → x.ReadsBack) :
    ofJson? m.toJson = whenFinite m.components m := by
  have hrow : ∀ r ∈ m.rows, ((Json.array (r.toList.map .ofSingle)).list? Json.single?).bind
      Row.ofList? = whenFinite r.toList r := by
    intro r hr
    rw [list?_ofSingle fun x hx => h x (List.mem_flatMap.mpr ⟨r, hr, hx⟩)]
    exact whenFinite_bind_of_eq rfl
  have hrows : list? (fun row => (row.list? Json.single?).bind Row.ofList?)
      (.array (m.rows.map fun r => .array (r.toList.map .ofSingle))) =
        whenFinite m.components m.rows :=
    list?_map_whenFinite Row.toList hrow
  have hrecord : m.toJson.record? ["m"] =
      some ⟨false, [some (.array (m.rows.map fun r => .array (r.toList.map .ofSingle)))]⟩ :=
    record?_ofMembers ["m"] [_] (by decide) rfl
  rw [ofJson?, hrecord]
  show (list? (fun row => (row.list? Json.single?).bind Row.ofList?) _).bind ofRows? = _
  rw [hrows]
  exact whenFinite_bind_of_eq rfl

lemma Scroll.writable_toJson (h : ∀ x ∈ [s.x, s.y], x.isFinite = true → x.ReadsBack) :
    s.toJson.Writable :=
  writable_map_ofSingle h

lemma Scroll.ofJson?_toJson (h : ∀ x ∈ [s.x, s.y], x.isFinite = true → x.ReadsBack) :
    ofJson? s.toJson = whenFinite [s.x, s.y] s := by
  have hlist : list? single? s.toJson = whenFinite [s.x, s.y] [s.x, s.y] := list?_ofSingle h
  rw [ofJson?, hlist]
  exact whenFinite_bind_of_eq rfl

lemma Transform.writable_toJson (h : ∀ x ∈ t.matrix.components, x.isFinite = true → x.ReadsBack) :
    t.toJson.Writable := by
  refine .zip ?_
  simp only [List.forall_mem_cons]
  exact ⟨.ofNat, Matrix.writable_toJson h, List.forall_mem_nil _⟩

lemma Transform.ofJson?_toJson (hid : t.id < 2 ^ 32)
    (h : ∀ x ∈ t.matrix.components, x.isFinite = true → x.ReadsBack) :
    ofJson? t.toJson = whenFinite t.matrix.components t := by
  rw [ofJson?, toJson, record?_ofMembers _ _ (by decide) rfl]
  simp [Record.required, Record.value?, word32?_ofNat hid, Matrix.ofJson?_toJson h]

lemma Projection.writable_toJson
    (h : ∀ x ∈ p.matrix.components, x.isFinite = true → x.ReadsBack) :
    p.toJson.Writable := by
  refine .zip ?_
  simp only [List.forall_mem_cons]
  exact ⟨.ofString, Matrix.writable_toJson h, List.forall_mem_nil _⟩

lemma Projection.ofJson?_toJson (h : ∀ x ∈ p.matrix.components, x.isFinite = true → x.ReadsBack) :
    ofJson? p.toJson = whenFinite p.matrix.components p := by
  rw [ofJson?, toJson, record?_ofMembers _ _ (by decide) rfl]
  simp [Record.required, Record.value?, ProjectionKind.ofJson?_toJson, Matrix.ofJson?_toJson h]

end Numbers

section Images

variable {change : MemoryChange} {copy : TileCopy} {tile : Tile} {image : ColorImage}
  {op : Operation}

lemma writable_bytesToJson {bytes : ByteArray} : (bytesToJson bytes).Writable :=
  .array_map fun _ _ => .ofNat

lemma bytesOfJson?_bytesToJson (bytes : ByteArray) :
    bytesOfJson? (bytesToJson bytes) = some bytes := by
  have hlist : list? word8? (bytesToJson bytes) = some (bytes.data.toList.map UInt8.toNat) :=
    list?_map fun b _ => word8?_ofNat b.toNat_lt
  rw [bytesOfJson?, hlist]
  simp [Function.comp_def]

lemma MemoryChange.writable_toJson : change.toJson.Writable := by
  refine .zip ?_
  simp only [List.forall_mem_cons]
  exact ⟨.ofNat, .ofString, .ofNat, Rect.writable_toJson, writable_bytesToJson,
    List.forall_mem_nil _⟩

lemma MemoryChange.ofJson?_toJson (h : change.InWords) : ofJson? change.toJson = some change := by
  obtain ⟨haddress, hwidth, hrect⟩ := h
  rw [ofJson?, toJson, record?_ofMembers _ _ (by decide) rfl]
  simp [Record.required, Record.value?, word32?_ofNat haddress, word32?_ofNat hwidth,
    Rect.ofJson?_toJson hrect, PixelSize.ofJson?_toJson, bytesOfJson?_bytesToJson]

lemma TileCopy.writable_toJson : copy.toJson.Writable := by
  refine .zip ?_
  simp only [List.forall_mem_cons]
  exact ⟨.ofNat, .ofString, .ofNat, .ofNat, Rect.writable_toJson, Rect.writable_toJson,
    List.forall_mem_nil _⟩

lemma TileCopy.ofJson?_toJson (h : copy.InWords) : ofJson? copy.toJson = some copy := by
  obtain ⟨haddress, hwidth, hindex, hfbRect, htileRect⟩ := h
  rw [ofJson?, toJson, record?_ofMembers _ _ (by decide) rfl]
  simp [Record.required, Record.value?, word32?_ofNat haddress, word32?_ofNat hwidth,
    word32?_ofNat hindex, Rect.ofJson?_toJson hfbRect, Rect.ofJson?_toJson htileRect,
    PixelSize.ofJson?_toJson]

lemma Tile.writable_toJson : tile.toJson.Writable := by
  refine .zip ?_
  simp only [List.forall_mem_cons]
  exact ⟨.ofNat, .ofNat, .ofString, .ofNat, Rect.writable_toJson, Rect.writable_toJson, .ofNat,
    List.forall_mem_nil _⟩

lemma Tile.ofJson?_toJson (h : tile.InWords) : ofJson? tile.toJson = some tile := by
  obtain ⟨haddress, hwidth, hformat, hloadRect, hsampleRect, hmemoryHash⟩ := h
  rw [ofJson?, toJson, record?_ofMembers _ _ (by decide) rfl]
  simp [Record.required, Record.value?, word32?_ofNat haddress, word32?_ofNat hwidth,
    word8?_ofNat hformat, word32?_ofNat hmemoryHash, Rect.ofJson?_toJson hloadRect,
    Rect.ofJson?_toJson hsampleRect, PixelSize.ofJson?_toJson]

lemma ColorImage.writable_toJson : image.toJson.Writable := by
  refine .zip ?_
  simp only [List.forall_mem_cons]
  exact ⟨.ofNat, .ofString, .ofNat, List.forall_mem_nil _⟩

lemma ColorImage.ofJson?_toJson (h : image.InWords) : ofJson? image.toJson = some image := by
  obtain ⟨haddress, hwidth⟩ := h
  rw [ofJson?, toJson, record?_ofMembers _ _ (by decide) rfl]
  simp [Record.required, Record.value?, word32?_ofNat haddress, word32?_ofNat hwidth,
    PixelSize.ofJson?_toJson]

lemma Json.writable_ofChoice {name : String} {content : Json} (h : content.Writable) :
    (ofChoice name content).Writable :=
  .ofMembers (List.forall_mem_singleton.mpr h)

lemma Operation.writable_toJson : op.toJson.Writable := by
  cases op with
  | upload type change =>
    refine writable_ofChoice (.ofMembers ?_)
    simp only [List.forall_mem_cons]
    exact ⟨.ofString, MemoryChange.writable_toJson, List.forall_mem_nil _⟩
  | copyTile copy => exact writable_ofChoice TileCopy.writable_toJson
  | reinterpret address size width source target rect =>
    refine writable_ofChoice (.ofMembers ?_)
    simp only [List.forall_mem_cons]
    exact ⟨.ofNat, .ofString, .ofNat, .ofString, .ofString, Rect.writable_toJson,
      List.forall_mem_nil _⟩
  | synchronize address size width =>
    refine writable_ofChoice (.ofMembers ?_)
    simp only [List.forall_mem_cons]
    exact ⟨.ofNat, .ofString, .ofNat, List.forall_mem_nil _⟩

lemma Operation.ofJson?_toJson (h : op.InWords) : ofJson? op.toJson = some op := by
  cases op with
  | upload type change =>
    have hchoice : (upload type change).toJson.choice? = some ("WriteChanges",
        some (.ofMembers [("write_type", type.toJson), ("change", change.toJson)])) := rfl
    have hrecord := record?_ofMembers ["write_type", "change"] [type.toJson, change.toJson]
      (by decide) rfl
    simp only [List.zip_cons_cons, List.zip_nil_left] at hrecord
    simp [ofJson?, hchoice, hrecord, Record.required, Record.value?, WriteType.ofJson?_toJson,
      MemoryChange.ofJson?_toJson h]
  | copyTile copy =>
    have hchoice : (copyTile copy).toJson.choice? = some ("CreateTileCopy", some copy.toJson) := rfl
    simp [ofJson?, hchoice, TileCopy.ofJson?_toJson h]
  | reinterpret address size width source target rect =>
    obtain ⟨haddress, hwidth, hrect⟩ := h
    have hchoice : (reinterpret address size width source target rect).toJson.choice? =
        some ("Reinterpret", some (.ofMembers [("address", .ofNat address), ("siz", size.toJson),
          ("width", .ofNat width), ("from", source.toJson), ("to", target.toJson),
          ("rect", rect.toJson)])) := rfl
    have hrecord := record?_ofMembers ["address", "siz", "width", "from", "to", "rect"]
      [.ofNat address, size.toJson, .ofNat width, source.toJson, target.toJson, rect.toJson]
      (by decide) rfl
    simp only [List.zip_cons_cons, List.zip_nil_left] at hrecord
    simp [ofJson?, hchoice, hrecord, Record.required, Record.value?, word32?_ofNat haddress,
      word32?_ofNat hwidth, PixelSize.ofJson?_toJson, WriteType.ofJson?_toJson,
      Rect.ofJson?_toJson hrect]
  | synchronize address size width =>
    obtain ⟨haddress, hwidth⟩ := h
    have hchoice : (synchronize address size width).toJson.choice? =
        some ("Synchronize", some (.ofMembers [("address", .ofNat address), ("siz", size.toJson),
          ("width", .ofNat width)])) := rfl
    have hrecord := record?_ofMembers ["address", "siz", "width"]
      [.ofNat address, size.toJson, .ofNat width] (by decide) rfl
    simp only [List.zip_cons_cons, List.zip_nil_left] at hrecord
    simp [ofJson?, hchoice, hrecord, Record.required, Record.value?, word32?_ofNat haddress,
      word32?_ofNat hwidth, PixelSize.ofJson?_toJson]

end Images

section Draws

variable {d : Draw} {c : Call} {p : Pair} {w : Workload}

lemma Draw.writable_toJson (h : ∀ x ∈ [d.scroll.x, d.scroll.y], x.isFinite = true → x.ReadsBack) :
    d.toJson.Writable := by
  refine .zip ?_
  simp only [List.forall_mem_cons]
  exact ⟨.ofNat, .ofNat, .ofNullable fun _ _ => .ofNat, Rect.writable_toJson,
    Scroll.writable_toJson h, .bool _, List.forall_mem_nil _⟩

lemma Draw.ofJson?_toJson (hd : d.InWords)
    (h : ∀ x ∈ [d.scroll.x, d.scroll.y], x.isFinite = true → x.ReadsBack) :
    ofJson? d.toJson = whenFinite [d.scroll.x, d.scroll.y] d := by
  obtain ⟨htransform, hcount, htile, hscissor⟩ := hd
  have htile := nullable?_ofNullable (fun n hn => word64?_ofNat (htile n hn))
    fun _ h => by cases h
  rw [ofJson?, toJson, record?_ofMembers _ _ (by decide) rfl]
  simp [Record.required, Record.nullable, Record.value?, word64?_ofNat htransform,
    word32?_ofNat hcount, htile, Rect.ofJson?_toJson hscissor, Scroll.ofJson?_toJson h, bool?]

lemma Call.writable_toJson : c.toJson.Writable := by
  refine .zip ?_
  simp only [List.forall_mem_cons]
  exact ⟨.ofNat, .ofNat, List.forall_mem_nil _⟩

lemma Call.ofJson?_toJson (h : c.InWords) : ofJson? c.toJson = some c := by
  obtain ⟨hprojection, hdraw⟩ := h
  rw [ofJson?, toJson, record?_ofMembers _ _ (by decide) rfl]
  simp [Record.required, Record.value?, word64?_ofNat hprojection, word64?_ofNat hdraw]

lemma Pair.writable_toJson (h : ∀ x ∈ p.singles, x.isFinite = true → x.ReadsBack) :
    p.toJson.Writable := by
  refine .zip ?_
  simp only [List.forall_mem_cons]
  refine ⟨.ofNullable fun _ _ => ColorImage.writable_toJson, .ofNullable fun _ _ => .ofNat,
    .array_map fun projection hprojection => Projection.writable_toJson fun x hx => h x ?_,
    .array_map fun _ _ => Call.writable_toJson, Rect.writable_toJson, Rect.writable_toJson,
    .bool _, .bool _, .array_map fun _ _ => Operation.writable_toJson,
    .array_map fun _ _ => Operation.writable_toJson, List.forall_mem_nil _⟩
  exact List.mem_flatMap.mpr ⟨projection, hprojection, hx⟩

lemma Pair.ofJson?_toJson (hp : p.InWords)
    (h : ∀ x ∈ p.singles, x.isFinite = true → x.ReadsBack) :
    ofJson? p.toJson = whenFinite p.singles p := by
  have hcolor := nullable?_ofNullable
    (fun image hi => ColorImage.ofJson?_toJson (hp.colorImage image hi))
    fun _ h => by cases h
  have hdepth := nullable?_ofNullable (fun n hn => word32?_ofNat (hp.depthImage n hn))
    fun _ h => by cases h
  have hprojections : list? Projection.ofJson? (.array (p.projections.map Projection.toJson)) =
      whenFinite p.singles p.projections :=
    list?_map_whenFinite _ fun projection hprojection => Projection.ofJson?_toJson fun x hx =>
      h x (List.mem_flatMap.mpr ⟨projection, hprojection, hx⟩)
  have hcalls := list?_map fun c hc => Call.ofJson?_toJson (hp.calls c hc)
  have hbefore := list?_map fun op hop => Operation.ofJson?_toJson (hp.before op hop)
  have hafter := list?_map fun op hop => Operation.ofJson?_toJson (hp.after op hop)
  rw [List.map_id'] at hcalls hbefore hafter
  rw [ofJson?, toJson, record?_ofMembers _ _ (by decide) rfl]
  simp [Record.required, Record.nullable, Record.value?, hcolor, hdepth, hprojections, hcalls,
    Rect.ofJson?_toJson hp.colorRect, Rect.ofJson?_toJson hp.depthRect, bool?, hbefore, hafter]

lemma DrawTables.writable_toJson {t : DrawTables}
    (h : ∀ x ∈ t.singles, x.isFinite = true → x.ReadsBack) : t.toJson.Writable := by
  rw [singles, List.forall_mem_append] at h
  refine .zip ?_
  simp only [List.forall_mem_cons]
  refine ⟨.array_map fun d hd => Draw.writable_toJson fun x hx => h.1 x ?_,
    .array_map fun t ht => Transform.writable_toJson fun x hx => h.2 x ?_,
    .array_map fun _ _ => Tile.writable_toJson,
    .array_map fun _ _ => .ofNullable fun _ _ => TileCopy.writable_toJson, List.forall_mem_nil _⟩
  · exact List.mem_flatMap.mpr ⟨d, hd, hx⟩
  · exact List.mem_flatMap.mpr ⟨t, ht, hx⟩

lemma DrawTables.ofJson?_toJson (hw : w.InWords)
    (h : ∀ x ∈ w.tables.singles, x.isFinite = true → x.ReadsBack) :
    ofJson? w.tables.toJson = whenFinite w.tables.singles w.tables := by
  rw [singles, List.forall_mem_append] at h
  have hdraws := list?_map_whenFinite _ fun d hd => Draw.ofJson?_toJson (hw.draws d hd)
    fun x hx => h.1 x (List.mem_flatMap.mpr ⟨d, hd, hx⟩)
  have htransforms := list?_map_whenFinite _ fun t ht =>
    Transform.ofJson?_toJson (hw.transforms t ht)
      fun x hx => h.2 x (List.mem_flatMap.mpr ⟨t, ht, hx⟩)
  have htiles := list?_map fun t ht => Tile.ofJson?_toJson (hw.tiles t ht)
  have htileCopies := list?_map fun o ho =>
    nullable?_ofNullable (fun c hc => TileCopy.ofJson?_toJson (hw.tileCopies o ho c hc))
      fun _ h => by cases h
  rw [List.map_id'] at htiles htileCopies
  rw [ofJson?, toJson, record?_ofMembers _ _ (by decide) rfl]
  simp [Record.required, Record.value?, Workload.tables, singles, hdraws, htransforms, htiles,
    htileCopies]

namespace Workload

lemma writable_toJson (h : ∀ x ∈ w.singles, x.isFinite = true → x.ReadsBack) :
    w.toJson.Writable := by
  rw [singles, List.forall_mem_append] at h
  refine .zip ?_
  simp only [List.forall_mem_cons]
  refine ⟨.ofNat, .ofNat, .array_map fun p hp => Pair.writable_toJson fun x hx => h.2 x ?_,
    DrawTables.writable_toJson h.1, .ofNat, .bool _, .ofNat,
    .array_map fun _ _ => MemoryChange.writable_toJson, List.forall_mem_nil _⟩
  exact List.mem_flatMap.mpr ⟨p, hp, hx⟩

lemma ofJson?_toJson (hw : w.InWords) (h : ∀ x ∈ w.singles, x.isFinite = true → x.ReadsBack) :
    ofJson? w.toJson = whenFinite w.singles { w with currentProjection := none } := by
  rw [singles, List.forall_mem_append] at h
  have htables := DrawTables.ofJson?_toJson hw h.1
  have hpairs := list?_map_whenFinite _ fun p hp => Pair.ofJson?_toJson (hw.pairs p hp)
    fun x hx => h.2 x (List.mem_flatMap.mpr ⟨p, hp, hx⟩)
  have hchanges := list?_map fun c hc => MemoryChange.ofJson?_toJson (hw.changes c hc)
  rw [List.map_id'] at hchanges
  rw [ofJson?, toJson, record?_ofMembers _ _ (by decide) rfl]
  simp [Record.required, Record.value?, htables, hpairs, hchanges, word64?_ofNat hw.id,
    word64?_ofNat hw.presentId, word64?_ofNat hw.submissionFrame, word32?_ofNat hw.gameRate, bool?]
  rfl

/-- A workload reads back from its transcript exactly if all of its numbers are finite, and then it
is the same but for the projection in use. -/
theorem ofText?_text (hw : w.InWords) (h : ∀ x ∈ w.singles, x.isFinite = true → x.ReadsBack) :
    ofText? w.text = if ∀ x ∈ w.singles, x.isFinite = true then
      some { w with currentProjection := none } else none := by
  rw [ofText?, text, (writable_toJson h).parse?_compact]
  exact ofJson?_toJson hw h

/-- Every operation, and a draw whose texture is shifted. -/
def varied (shift : Single) : Workload where
  id := 2 ^ 64 - 1
  presentId := 7
  pairs := [.empty, {
    colorImage := some ⟨0x100, .bits16, 320⟩
    depthImage := some 0x200
    projections := [⟨.perspective, .shift .half (-3) (.ofQuotient 1 10)⟩]
    calls := [⟨0, 0⟩]
    colorRect := ⟨-8, 0, 320, 240⟩
    depthRect := Rect.none
    syncRequired := true
    blendable := false
    before := [.upload .depth ⟨0x100, .bits16, 2, ⟨0, 0, 2, 1⟩, ⟨#[1, 2, 3, 255]⟩⟩,
      .copyTile ⟨0x100, .bits32, 4, 0, ⟨0, 0, 4, 4⟩, ⟨1, 1, 5, 5⟩⟩]
    after := [.reinterpret 0x100 .bits4 320 .color .depth ⟨0, 0, 1, 1⟩,
      .synchronize 0x100 .bits8 320] }]
  draws := [⟨0, 3, some 0, ⟨0, 0, 8, 8⟩, ⟨shift, 0⟩, true⟩, ⟨0, 6, none, Rect.none, .zero, false⟩]
  transforms := [⟨2 ^ 32 - 1, .scaling 1000000 (.ofQuotient 1 1000000) 1⟩]
  tiles := [⟨0x100, 4, .bits32, 2, ⟨0, 0, 4, 4⟩, ⟨0, 0, 2, 2⟩, 0xFFFFFFFF⟩]
  tileCopies := [none, some ⟨0x100, .bits32, 4, 1, ⟨0, 0, 4, 4⟩, ⟨0, 0, 4, 4⟩⟩]
  submissionFrame := 12
  paused := false
  gameRate := 60
  changes := [⟨0x100, .bits16, 0, Rect.none, ByteArray.empty⟩]
  currentProjection := some 0

/-- A shift that is a number is read back, and an infinite one is not. -/
theorem varied_reads_back :
    ofText? (varied (.ofQuotient 2 3)).text =
        some { varied (.ofQuotient 2 3) with currentProjection := none } ∧
      ofText? (varied ⟨0x7F800000⟩).text = none := by
  constructor
  · rw [ofText?_text (by decide +kernel) (by decide +kernel), if_pos (by decide +kernel)]
  · rw [ofText?_text (by decide +kernel) (by decide +kernel), if_neg (by decide +kernel)]

end Workload

end Draws

end Scanout
