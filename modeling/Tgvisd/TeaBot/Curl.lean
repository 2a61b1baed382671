import Tgvisd.Lib.Block

/-!
# Collecting a response

`TeaCurl::execute` allocates the output and hands `write_callback` to libcurl, which calls it once
for each piece of the response. Sizes are those of a `size_t`, and allocations succeed.
-/

namespace Tgvisd.TeaBot

/-- A `size_t`. -/
def sizeT (value : ℕ) : ℕ := value % 18446744073709551616

/-- What libcurl hands to `write_callback`. -/
structure Chunk where
  ptr : List Char
  size : ℕ
  nmemb : ℕ
  length_eq : ptr.length = size * nmemb

structure TeaCurl where
  output : Block Char := ⟨[]⟩
  outputAlloc : ℕ := 0
  outlen : ℕ := 0

namespace TeaCurl

/-- The reallocation in `write_callback`. -/
def reserve (obj : TeaCurl) (newoutlen : ℕ) : TeaCurl :=
  if obj.outputAlloc < sizeT (newoutlen + 1) then
    { obj with
      outputAlloc := sizeT (newoutlen + 4096)
      output := obj.output.reallocate (sizeT (newoutlen + 4096)) }
  else
    obj

/-- `buf` points into the output at `outlen_`. -/
def writeCallback (obj : TeaCurl) (chunk : Chunk) : Option TeaCurl := do
  let realsiz := sizeT (chunk.size * chunk.nmemb)
  let newoutlen := sizeT (obj.outlen + realsiz)
  let obj := obj.reserve newoutlen
  let buf := obj.outlen
  let output ← obj.output.store (buf + realsiz) '\x00'
  let output ← output.storeAll buf (chunk.ptr.take realsiz)
  return { obj with output, outlen := sizeT (obj.outlen + realsiz) }

def perform (obj : TeaCurl) : List Chunk → Option TeaCurl
  | [] => some obj
  | chunk :: chunks => do
    let obj ← obj.writeCallback chunk
    obj.perform chunks

/-- `execute`, when `curl_easy_perform` hands over these pieces and returns `res`; `CURLE_OK` is 0,
and any other code is thrown with its text. -/
def execute (curlEasyStrerror : ℕ → List Char) (obj : TeaCurl) (chunks : List Chunk) (res : ℕ) :
    Option (Except (List Char) TeaCurl) := do
  let obj ← { obj with outputAlloc := 4096, output := Block.allocate 4096 }.perform chunks
  if res = 0 then
    return .ok obj
  else
    return .error ("Curl error: ".toList ++ (curlEasyStrerror res).take 1011)

/-- The output begins with the pieces collected so far, and there is room behind them. -/
structure Filled (obj : TeaCurl) (body : List Char) : Prop where
  outputAlloc : obj.outputAlloc = obj.output.size
  outlen : obj.outlen = body.length
  room : body.length < obj.output.size
  output : ∃ back, obj.output.cells = body.map some ++ back

/-- The output is the given text and a terminator, so that it can be read as a string. -/
structure Collected (obj : TeaCurl) (body : List Char) : Prop where
  outlen : obj.outlen = body.length
  output : ∃ rest, obj.output.cells = body.map some ++ some '\x00' :: rest
  string : obj.output.stringAt '\x00' 0 = some (body.takeWhile (· ≠ '\x00'))

theorem Collected.of_cells {obj : TeaCurl} {body : List Char} {rest : List (Option Char)}
    (houtlen : obj.outlen = body.length)
    (hcells : obj.output.cells = body.map some ++ some '\x00' :: rest) : obj.Collected body where
  outlen := houtlen
  output := ⟨rest, hcells⟩
  string := by
    have hcells' : obj.output.cells = [] ++ body.map some ++ some '\x00' :: rest := by
      simpa using hcells
    exact Block.stringAt_eq_takeWhile hcells'

/-- The reallocation makes room for the piece and the terminator. -/
theorem Filled.reserve {obj : TeaCurl} {body : List Char} (h : obj.Filled body) {newoutlen : ℕ}
    (hlonger : body.length ≤ newoutlen) (htotal : newoutlen < 18446744073709551615 - 4096) :
    (obj.reserve newoutlen).Filled body ∧ newoutlen < (obj.reserve newoutlen).output.size := by
  have hterminated : sizeT (newoutlen + 1) = newoutlen + 1 := Nat.mod_eq_of_lt (by omega)
  have hgrown : sizeT (newoutlen + 4096) = newoutlen + 4096 := Nat.mod_eq_of_lt (by omega)
  have halloc := h.outputAlloc
  unfold TeaCurl.reserve
  rw [hterminated, hgrown]
  split_ifs with hsmall
  · refine ⟨?_, by simp⟩
    constructor
    · simp
    · exact h.outlen
    · simp only [Block.size_reallocate]
      omega
    · exact Block.Begins.reallocate h.output (by omega)
  · exact ⟨h, by omega⟩

/-- The two writes of the callback, once there is room. -/
theorem Filled.writes {obj : TeaCurl} {body piece : List Char} (h : obj.Filled body)
    (hroom : body.length + piece.length < obj.output.size) :
    ∃ rest, (obj.output.store (body.length + piece.length) '\x00').bind
        (fun output ↦ output.storeAll body.length piece) =
          some ⟨(body ++ piece).map some ++ some '\x00' :: rest⟩ ∧
      body.length + piece.length + 1 + rest.length = obj.output.size := by
  obtain ⟨back, hback⟩ := h.output
  have hlength : body.length + back.length = obj.output.size := by simp [Block.size, hback]
  have hlong : piece.length < back.length := by omega
  have hcells : obj.output.cells = (body.map some ++ back.take piece.length) ++
      back[piece.length] :: back.drop (piece.length + 1) := by
    rw [List.append_assoc, ← List.drop_eq_getElem_cons hlong, List.take_append_drop, hback]
  have hposition : (body.map some ++ back.take piece.length).length =
      body.length + piece.length := by
    simp only [List.length_append, List.length_map, List.length_take]
    omega
  have hstore := Block.store_eq hcells '\x00'
  rw [hposition] at hstore
  have hterminated : (⟨(body.map some ++ back.take piece.length) ++
        some '\x00' :: back.drop (piece.length + 1)⟩ : Block Char).cells =
      body.map some ++ back.take piece.length ++ some '\x00' :: back.drop (piece.length + 1) := rfl
  have hroom : (back.take piece.length).length = piece.length := by
    rw [List.length_take]
    omega
  have hstoreAll := Block.storeAll_eq hterminated hroom
  rw [List.length_map] at hstoreAll
  refine ⟨back.drop (piece.length + 1), ?_, ?_⟩
  · rw [hstore, Option.bind_some, hstoreAll, List.map_append]
  · rw [List.length_drop]
    omega

/-- The step lemma: a piece is appended and terminated, within the allocated bytes. -/
theorem Filled.writeCallback {obj : TeaCurl} {body : List Char} (h : obj.Filled body)
    (chunk : Chunk) (htotal : body.length + chunk.ptr.length < 18446744073709551615 - 4096) :
    ∃ next, obj.writeCallback chunk = some next ∧ next.Filled (body ++ chunk.ptr) ∧
      next.Collected (body ++ chunk.ptr) := by
  have hrealsiz : sizeT (chunk.size * chunk.nmemb) = chunk.ptr.length := by
    rw [← chunk.length_eq, sizeT, Nat.mod_eq_of_lt (by omega)]
  have hnewoutlen : sizeT (body.length + chunk.ptr.length) = body.length + chunk.ptr.length :=
    Nat.mod_eq_of_lt (by omega)
  obtain ⟨hreserved, hroom⟩ := h.reserve (Nat.le_add_right _ _) htotal
  obtain ⟨rest, hwrites, hsize⟩ := hreserved.writes hroom
  have hlength : (body ++ chunk.ptr).length = body.length + chunk.ptr.length := by simp
  refine ⟨{ obj.reserve (body.length + chunk.ptr.length) with
    output := ⟨(body ++ chunk.ptr).map some ++ some '\x00' :: rest⟩
    outlen := body.length + chunk.ptr.length }, ?_, ?_, ?_⟩
  · rw [Option.bind_eq_some_iff] at hwrites
    obtain ⟨output, hstore, hstoreAll⟩ := hwrites
    simp [TeaCurl.writeCallback, hrealsiz, h.outlen, hnewoutlen, hreserved.outlen, hstore,
      hstoreAll]
  · constructor
    · rw [hreserved.outputAlloc, ← hsize]
      simp only [Block.size_mk, List.length_append, List.length_map, List.length_cons]
      omega
    · exact hlength.symm
    · simp
    · exact ⟨_, rfl⟩
  · exact .of_cells hlength.symm rfl

/-- The run lemma. -/
theorem Filled.perform {obj : TeaCurl} {body : List Char} (h : obj.Filled body)
    (chunks : List Chunk)
    (htotal : body.length + (chunks.flatMap Chunk.ptr).length < 18446744073709551615 - 4096) :
    ∃ finish, obj.perform chunks = some finish ∧
      finish.Filled (body ++ chunks.flatMap Chunk.ptr) ∧
      (chunks ≠ [] → finish.Collected (body ++ chunks.flatMap Chunk.ptr)) := by
  induction chunks generalizing obj body with
  | nil => exact ⟨obj, rfl, by simpa using h, fun hne ↦ absurd rfl hne⟩
  | cons chunk chunks ih =>
    simp only [List.flatMap_cons, List.length_append] at htotal
    obtain ⟨next, hnext, hfilled, hcollected⟩ := h.writeCallback chunk (by omega)
    obtain ⟨finish, hfinish, hall, hstring⟩ := ih hfilled (by rw [List.length_append]; omega)
    refine ⟨finish, by simp [TeaCurl.perform, hnext, hfinish], by simpa using hall, ?_⟩
    intro _
    cases chunks with
    | nil =>
      obtain rfl : next = finish := by simpa [TeaCurl.perform] using hfinish
      simpa using hcollected
    | cons second chunks => simpa using hstring (by simp)

/-- A fresh object with its first allocation. -/
theorem filled_allocate :
    ({ outputAlloc := 4096, output := Block.allocate 4096 } : TeaCurl).Filled [] := by
  constructor
  · simp
  · rfl
  · simp
  · exact ⟨_, rfl⟩

/-- A fresh allocation holds no terminator. -/
theorem Collected.ne_allocate {obj : TeaCurl} {body : List Char} (h : obj.Collected body)
    (size : ℕ) : obj.output ≠ Block.allocate size := by
  intro hfresh
  obtain ⟨rest, hrest⟩ := h.output
  have hmem : some '\x00' ∈ (Block.allocate size : Block Char).cells := by
    rw [← hfresh, hrest]
    exact List.mem_append_right _ List.mem_cons_self
  exact absurd (List.eq_of_mem_replicate hmem) (by simp)

theorem execute_eq {curlEasyStrerror : ℕ → List Char} {obj finish : TeaCurl} {chunks : List Chunk}
    (hfinish : ({ obj with outputAlloc := 4096, output := Block.allocate 4096 } : TeaCurl).perform
      chunks = some finish) :
    execute curlEasyStrerror obj chunks 0 = some (.ok finish) := by
  rw [execute, hfinish]
  rfl

/-- For every response: no write leaves the allocated bytes, and when `execute` returns the output
is the terminated response if and only if libcurl has called `write_callback` at all. -/
theorem execute_collects_iff (curlEasyStrerror : ℕ → List Char) (chunks : List Chunk)
    (htotal : (chunks.flatMap Chunk.ptr).length < 18446744073709551615 - 4096) :
    ∃ finish, execute curlEasyStrerror {} chunks 0 = some (.ok finish) ∧
      finish.outputAlloc = finish.output.size ∧
      (finish.Collected (chunks.flatMap Chunk.ptr) ↔ chunks ≠ []) := by
  obtain ⟨finish, hfinish, hfilled, hcollected⟩ :=
    filled_allocate.perform chunks (by simpa using htotal)
  refine ⟨finish, execute_eq hfinish, hfilled.outputAlloc, ?_, hcollected⟩
  rintro h rfl
  have hfresh : finish.output = Block.allocate 4096 :=
    congrArg TeaCurl.output (Option.some.inj hfinish).symm
  exact h.ne_allocate 4096 hfresh

/-- Two pieces, the first of which fills the first allocation but for the terminator. -/
def twoPieces : List Chunk :=
  [⟨List.replicate 4095 'a', 1, 4095, List.length_replicate⟩, ⟨['b'], 1, 1, rfl⟩]

theorem length_twoPieces : (twoPieces.flatMap Chunk.ptr).length = 4096 := by
  rw [twoPieces, List.flatMap_cons, List.length_append, List.length_replicate]
  rfl

theorem execute_collects_twoPieces :
    ∃ finish, execute (fun _ ↦ []) {} twoPieces 0 = some (.ok finish) ∧
      finish.Collected (twoPieces.flatMap Chunk.ptr) := by
  obtain ⟨finish, hfinish, -, hcollected⟩ :=
    execute_collects_iff (fun _ ↦ []) twoPieces (by rw [length_twoPieces]; decide)
  exact ⟨finish, hfinish, hcollected.mpr (List.cons_ne_nil _ _)⟩

/-- An empty response. -/
theorem not_collected_noBody :
    ¬ ∃ finish, execute (fun _ ↦ []) {} [] 0 = some (.ok finish) ∧ finish.Collected [] := by
  rintro ⟨finish, hfinish, h⟩
  have hfresh : finish.output = Block.allocate 4096 := by
    have hexecute : execute (fun _ ↦ []) {} [] 0 = _ := execute_eq rfl
    rw [hexecute, Option.some.injEq, Except.ok.injEq] at hfinish
    rw [← hfinish]
  exact h.ne_allocate 4096 hfresh

end TeaCurl

end Tgvisd.TeaBot
