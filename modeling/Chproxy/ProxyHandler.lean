/-
The address a request is taken to come from behind a proxy (`proxy_handler.go`), and the address
`Networks.Contains` (`config/types.go`) then reads out of it. For the `Forwarded` header this is the
address of the node, except that an IPv6 address and its port are run together, that a blank before a
comma spoils the address, and that another header or an earlier piece may be read in its place.
-/
import Chproxy.Config.Networks
import Chproxy.Lib.Decimal
import Chproxy.Utils.QueryText

namespace Chproxy.ProxyHandler

open Config (NetParsers Networks addr4)
open IpNet (Addr)
open Utils (isSpace trimSpace)

/-! ## Package `net` -/

/-- The host of `net.SplitHostPort`; `none` for its errors. -/
def splitHostPort (hostport : List Char) : Option (List Char) :=
  -- the port starts after the last colon
  let port := (hostport.reverse.takeWhile (· ≠ ':')).reverse
  let front := (hostport.reverse.dropWhile (· ≠ ':')).tail.reverse
  if ':' ∉ hostport then none
  else if hostport.head? = some '[' then
    -- the first `]` is expected just before the last colon
    let host := hostport.tail.takeWhile (· ≠ ']')
    if front ≠ '[' :: (host ++ [']']) then none
    else if '[' ∈ hostport.tail ∨ ']' ∈ port then none
    else some host
  else if ':' ∈ front then none
  else if '[' ∈ hostport ∨ ']' ∈ hostport then none
  else some front

/-- What is assumed of `net.ParseIP`: it takes digits and dots for IPv4 addresses, and hexadecimal digits,
dots and at least two colons for IPv6 addresses. -/
structure IPParser where
  parse : List Char → Option Addr
  nil : parse [] = none
  chars4 : ∀ {t a}, parse t = some a → a.is4 = true → ∀ c ∈ t, c.isDigit = true ∨ c = '.'
  chars6 : ∀ {t a}, parse t = some a → a.is4 = false →
    ∀ c ∈ t, c.isDigit = true ∨ c ∈ "abcdefABCDEF:.".toList
  colons6 : ∀ {t a}, parse t = some a → a.is4 = false → 2 ≤ t.count ':'

def IPParser.net (ip : IPParser) : NetParsers := ⟨ip.parse, splitHostPort⟩

/-! ## `GetRemoteAddr` -/

/-- A request: `r.Header.Get` and `r.RemoteAddr`. -/
structure Incoming where
  header : String → List Char
  remoteAddr : List Char

def xForwardedForHeader : String := "X-Forwarded-For"

def xRealIPHeader : String := "X-Real-Ip"

def forwardedHeader : String := "Forwarded"

/-- The part before the first comma. -/
def extractFirstMatchFromIPList (ipList : List Char) : List Char := ipList.takeWhile (· ≠ ',')

/-- `strings.HasPrefix(strings.ToLower(trimmed), "for=")`; no letter beyond ASCII is lowered to one of these. -/
def hasFor (trimmed : List Char) : Bool := "for=".toList.isPrefixOf (trimmed.map Char.toLower)

/-- If IPv6, remove brackets and quotes. -/
def unquote (addr : List Char) : List Char := addr.filter fun c => c ∉ ['"', '[', ']']

/-- What a piece between semicolons gives, if it is the parameter `for`. -/
def forAddr (split : List Char) : Option (List Char) :=
  let trimmed := trimSpace split
  if hasFor trimmed then some (unquote ((extractFirstMatchFromIPList trimmed).drop 4)) else none

def parseForwardedHeader (fwd : List Char) : List Char := ((fwd.splitOn ';').findSome? forAddr).getD []

def parseDefaultProxyHeaders (r : Incoming) : List Char :=
  if r.header xForwardedForHeader ≠ [] then extractFirstMatchFromIPList (r.header xForwardedForHeader)
  else if r.header xRealIPHeader ≠ [] then extractFirstMatchFromIPList (r.header xRealIPHeader)
  else if r.header forwardedHeader ≠ [] then parseForwardedHeader (r.header forwardedHeader)
  else []

/-- A valid IP or IP:port. -/
def isValidAddr (net : NetParsers) (addr : List Char) : Bool :=
  if addr = [] then false
  else match net.splitHostPort addr with
    | none => (net.parseAddr addr).isSome
    | some ip => (net.parseAddr ip).isSome

/-- `GetRemoteAddr`, for the proxy settings `enable` and `header`. -/
def getRemoteAddr (net : NetParsers) (enable : Bool) (header : String) (r : Incoming) : List Char :=
  if enable then
    let addr := if header ≠ "" then r.header header else parseDefaultProxyHeaders r
    if isValidAddr net addr then addr else r.remoteAddr
  else r.remoteAddr

/-- The address that `Networks.Contains` looks for. -/
def addressOf (net : NetParsers) (addr : List Char) : Option Addr := net.parseAddr ((net.splitHostPort addr).getD addr)

theorem contains_eq_addressOf (net : NetParsers) {n : Networks} (h : n.length ≠ 0) (addr : List Char) :
    n.contains net addr = (addressOf net addr).map fun ip => n.any (·.contains ip.as16) := by
  rw [Networks.contains, if_neg h]
  unfold addressOf
  dsimp only
  cases net.parseAddr ((net.splitHostPort addr).getD addr) with
  | none => rfl
  | some ip => rfl

/-! ## Forwarded values -/

/-- A node of the header, with the text of its address and its port. -/
inductive Node
  | v4 (text : List Char) (port : Option (List Char))
  | v6 (text : List Char) (port : Option (List Char))

namespace Node

def portText : Option (List Char) → List Char
  | none => []
  | some p => ':' :: p

/-- An IPv6 node is quoted and has brackets. -/
def text : Node → List Char
  | v4 t port => t ++ portText port
  | v6 t port => '"' :: '[' :: (t ++ ']' :: (portText port ++ ['"']))

def port : Node → Option (List Char)
  | v4 _ port => port
  | v6 _ port => port

/-- The node has the address `a`, and a port made of digits. -/
structure Denotes (ip : IPParser) (node : Node) (a : Addr) : Prop where
  addr : match node with
    | v4 t _ => ip.parse t = some a ∧ a.is4 = true
    | v6 t _ => ip.parse t = some a ∧ a.is4 = false
  port : ∀ p, node.port = some p → ∀ c ∈ p, c.isDigit = true

end Node

/-- A `Forwarded` value with a parameter `for=node`: what stands before it up to a semicolon, blanks, the
parameter in any letter case, what stands behind it up to a semicolon, and the rest. Behind the node the
parameter ends, or the first element does. -/
structure Forwarded where
  front : Option (List Char)
  lead : List Char
  name : List Char
  node : Node
  after : List Char
  more : Option (List Char)
  lead_blank : ∀ c ∈ lead, isSpace c = true
  name_for : name.map Char.toLower = "for".toList
  after_end : ';' ∉ after ∧ ((∀ c ∈ after, isSpace c = true) ∨
    ∃ blanks rest, (∀ c ∈ blanks, isSpace c = true) ∧ after = blanks ++ ',' :: rest)

namespace Forwarded

/-- The parameter itself. -/
def param (f : Forwarded) : List Char := f.name ++ '=' :: f.node.text

def text (f : Forwarded) : List Char :=
  (match f.front with | none => [] | some front => front ++ [';']) ++
    (f.lead ++ (f.param ++ f.after) ++ (match f.more with | none => [] | some more => ';' :: more))

/-- The pieces before the one with the parameter. -/
def frontPieces (f : Forwarded) : List (List Char) :=
  match f.front with
  | none => []
  | some front => front.splitOn ';'

/-- The blanks between the node and a comma. -/
def gap (f : Forwarded) : List Char := if ',' ∈ f.after then f.after.takeWhile isSpace else []

/-- What is read in the place of the node: a header that comes first, or an earlier piece that begins as
the parameter does. -/
def rival (f : Forwarded) (r : Incoming) : Option (List Char) :=
  if r.header xForwardedForHeader ≠ [] then some (extractFirstMatchFromIPList (r.header xForwardedForHeader))
  else if r.header xRealIPHeader ≠ [] then some (extractFirstMatchFromIPList (r.header xRealIPHeader))
  else f.frontPieces.findSome? forAddr

/-- The node is reached, is not an IPv6 address with a port, and no blank stands between it and a comma; with
an IPv4 address and a port such a blank counts as part of the port. -/
structure Found (f : Forwarded) (r : Incoming) : Prop where
  alone : f.rival r = none
  tight : f.gap = [] ∨ ∃ t p, f.node = .v4 t (some p)
  split : ∀ t p, f.node ≠ .v6 t (some p)

end Forwarded

/-! ## Splitting a host and a port -/

theorem exists_last_colon {s : List Char} (h : ':' ∈ s) : ∃ u p, s = u ++ ':' :: p ∧ ':' ∉ p := by
  induction s with
  | nil => cases h
  | cons c s ih =>
    by_cases hs : ':' ∈ s
    · obtain ⟨u, p, rfl, hp⟩ := ih hs
      exact ⟨c :: u, p, rfl, hp⟩
    · rcases List.mem_cons.1 h with rfl | h
      · exact ⟨[], s, rfl, hs⟩
      · exact absurd h hs

/-- Without a bracket at the beginning: the host is what stands before the only colon. -/
theorem splitHostPort_append {u p : List Char} (hp : ':' ∉ p) (hhead : (u ++ ':' :: p).head? ≠ some '[') :
    splitHostPort (u ++ ':' :: p) =
      if ':' ∈ u then none else if '[' ∈ u ++ ':' :: p ∨ ']' ∈ u ++ ':' :: p then none else some u := by
  have hall : ∀ c ∈ p.reverse, decide (c ≠ ':') = true := by
    intro c hc
    simpa using fun h : c = ':' => hp (h ▸ List.mem_reverse.1 hc)
  have hfront : ((u ++ ':' :: p).reverse.dropWhile (· ≠ ':')).tail.reverse = u := by
    rw [List.reverse_append, List.reverse_cons, List.append_assoc, List.dropWhile_append_of_pos hall]
    simp
  simp only [splitHostPort, hfront, hhead, if_false]
  rw [if_neg (by simp)]

theorem splitHostPort_of_notMem {s : List Char} (h : ':' ∉ s) : splitHostPort s = none := if_pos h

/-- The colons of an IPv6 address are too many. -/
theorem splitHostPort_of_count {s : List Char} (h : 2 ≤ s.count ':') (hhead : s.head? ≠ some '[') :
    splitHostPort s = none := by
  have hpos : 0 < s.count ':' := by omega
  obtain ⟨u, p, rfl, hp⟩ := exists_last_colon (List.count_pos_iff.1 hpos)
  have hu : ':' ∈ u := by
    rw [List.count_append, List.count_cons_self, List.count_eq_zero_of_not_mem hp] at h
    exact List.count_pos_iff.1 (by omega)
  rw [splitHostPort_append hp hhead, if_pos hu]

/-! ## Trimming -/

/-- The blanks at the end. -/
def trimRight (s : List Char) : List Char := (s.reverse.dropWhile isSpace).reverse

theorem trimRight_append {d : Char} (hd : isSpace d = false) (u v : List Char) :
    trimRight (u ++ d :: v) = u ++ d :: trimRight v := by
  unfold trimRight
  rw [List.reverse_append, List.reverse_cons, List.append_assoc, List.dropWhile_append]
  split
  · rename_i hnil
    rw [List.isEmpty_iff.1 hnil]
    simp [hd]
  · simp

theorem trimRight_blank {s : List Char} (h : ∀ c ∈ s, isSpace c = true) : trimRight s = [] := by
  have hdrop : (s.reverse ++ []).dropWhile isSpace = [].dropWhile isSpace :=
    List.dropWhile_append_of_pos fun c hc => h c (List.mem_reverse.1 hc)
  rw [List.append_nil, List.dropWhile_nil] at hdrop
  rw [trimRight, hdrop, List.reverse_nil]

/-- A text without blanks is kept, up to blanks at the end of what follows. -/
theorem trimSpace_append {lead l : List Char} (hlead : ∀ c ∈ lead, isSpace c = true) (hne : l ≠ [])
    (hl : ∀ c ∈ l, isSpace c = false) (v : List Char) : trimSpace (lead ++ (l ++ v)) = l ++ trimRight v := by
  obtain ⟨c, t, rfl⟩ := List.exists_cons_of_ne_nil hne
  have hdrop : (lead ++ (c :: t ++ v)).dropWhile isSpace = c :: t ++ v := by
    rw [List.dropWhile_append_of_pos hlead, List.cons_append, List.dropWhile_cons_of_neg]
    simp [hl c List.mem_cons_self]
  change trimRight ((lead ++ (c :: t ++ v)).dropWhile isSpace) = _
  obtain ⟨u, d, hlast⟩ := (List.eq_nil_or_concat (c :: t)).resolve_left hne
  have hd : isSpace d = false := hl d (by rw [hlast]; simp)
  rw [hdrop, hlast, List.concat_eq_append, List.append_assoc, List.singleton_append, trimRight_append hd]
  simp

/-! ## The node in the header -/

/-- A character of an address or a port. -/
def AddrChar (c : Char) : Prop := c.isDigit = true ∨ c ∈ "abcdefABCDEF:.".toList

theorem AddrChar.plain {c : Char} (h : AddrChar c) : isSpace c = false ∧ c ∉ [',', ';', '"', '[', ']'] := by
  rcases h with h | h
  · have hcode := Decimal.isDigit_bounds h
    refine ⟨?_, fun hmem => ?_⟩
    · simp only [isSpace, Bool.or_eq_false_iff, decide_eq_false_iff_not, List.mem_cons, List.not_mem_nil, or_false,
        Bool.and_eq_false_iff]
      omega
    · have hall : [',', ';', '"', '[', ']'].all (!·.isDigit) = true := by decide
      have hnot := List.all_eq_true.1 hall c hmem
      rw [h] at hnot
      cases hnot
  · have hall : "abcdefABCDEF:.".toList.all
        (fun c => decide (isSpace c = false ∧ c ∉ [',', ';', '"', '[', ']'])) = true := by decide
    exact of_decide_eq_true (List.all_eq_true.1 hall c h)

theorem AddrChar.notMem_quotes {c : Char} (h : AddrChar c) : c ∉ ['"', '[', ']'] := by
  intro hmem
  exact h.plain.2 (List.mem_cons_of_mem _ (List.mem_cons_of_mem _ hmem))

section Denotes

variable {ip : IPParser} {node : Node} {a : Addr}

theorem IPParser.addrChar {t : List Char} (h : ip.parse t = some a) : ∀ c ∈ t, AddrChar c := by
  intro c hc
  cases h4 : a.is4 with
  | true =>
    rcases ip.chars4 h h4 c hc with hdigit | rfl
    · exact .inl hdigit
    · exact .inr (by decide)
  | false => exact ip.chars6 h h4 c hc

theorem addrChar_portText {port : Option (List Char)} (h : ∀ p, port = some p → ∀ c ∈ p, c.isDigit = true) :
    ∀ c ∈ Node.portText port, AddrChar c := by
  intro c hc
  cases port with
  | none => cases hc
  | some p =>
    rcases List.mem_cons.1 hc with rfl | hc
    · exact .inr (by decide)
    · exact .inl (h p rfl c hc)

/-- The address and the port, without quotes and brackets. -/
def Node.bare : Node → List Char
  | v4 t port => t ++ portText port
  | v6 t port => t ++ portText port

theorem Node.Denotes.addrChar (h : node.Denotes ip a) : ∀ c ∈ node.bare, AddrChar c := by
  intro c hc
  cases node with
  | v4 t port =>
    rcases List.mem_append.1 hc with hc | hc
    · exact ip.addrChar h.addr.1 c hc
    · exact addrChar_portText h.port c hc
  | v6 t port =>
    rcases List.mem_append.1 hc with hc | hc
    · exact ip.addrChar h.addr.1 c hc
    · exact addrChar_portText h.port c hc

theorem Node.mem_text {c : Char} (h : c ∈ node.text) : c ∈ node.bare ∨ c ∈ ['"', '[', ']'] := by
  cases node with
  | v4 t port => exact .inl h
  | v6 t port =>
    simp only [text, bare, List.mem_cons, List.mem_append, List.not_mem_nil, or_false] at h ⊢
    tauto

theorem Node.Denotes.plain (h : node.Denotes ip a) : ∀ c ∈ node.text, isSpace c = false ∧ c ≠ ',' ∧ c ≠ ';' := by
  intro c hc
  rcases Node.mem_text hc with hc | hc
  · have hplain := (h.addrChar c hc).plain
    simp only [List.mem_cons, not_or] at hplain
    exact ⟨hplain.1, hplain.2.1, hplain.2.2.1⟩
  · have hall : ['"', '[', ']'].all (fun c => decide (isSpace c = false ∧ c ≠ ',' ∧ c ≠ ';')) = true := by decide
    exact of_decide_eq_true (List.all_eq_true.1 hall c hc)

theorem unquote_eq_self {s : List Char} (h : ∀ c ∈ s, AddrChar c) : unquote s = s := by
  rw [unquote, List.filter_eq_self]
  intro c hc
  simpa using (h c hc).notMem_quotes

theorem unquote_append (s s' : List Char) : unquote (s ++ s') = unquote s ++ unquote s' := List.filter_append ..

theorem Node.Denotes.unquote_text (h : node.Denotes ip a) : unquote node.text = node.bare := by
  cases node with
  | v4 t port => exact unquote_eq_self h.addrChar
  | v6 t port =>
    have htext : (Node.v6 t port).text = ['"', '['] ++ (t ++ ([']'] ++ (portText port ++ ['"']))) := rfl
    have hopen : unquote ['"', '['] = [] := by decide
    have hclose : unquote [']'] = [] := by decide
    have hquote : unquote ['"'] = [] := by decide
    rw [htext, unquote_append, unquote_append, unquote_append, unquote_append, hopen, hclose, hquote,
      unquote_eq_self (ip.addrChar h.addr.1), unquote_eq_self (@addrChar_portText port h.port), List.append_nil]
    rfl

end Denotes

/-! ## Finding the parameter -/

theorem plain_of_isAlpha {c : Char} (h : c.isAlpha = true) : isSpace c = false ∧ c ≠ ',' ∧ c ≠ ';' := by
  refine ⟨?_, ?_, ?_⟩
  · have hcode : (65 ≤ c.toNat ∧ c.toNat ≤ 90) ∨ (97 ≤ c.toNat ∧ c.toNat ≤ 122) := by
      change (decide (c.val ≥ 'A'.val ∧ c.val ≤ 'Z'.val) || (decide (c.val ≥ 'a'.val) && decide (c.val ≤ 'z'.val))) =
        true
        at h
      simp only [Bool.or_eq_true, Bool.and_eq_true, decide_eq_true_eq, ge_iff_le, UInt32.le_iff_toNat_le] at h
      exact h
    simp only [isSpace, Bool.or_eq_false_iff, decide_eq_false_iff_not, List.mem_cons, List.not_mem_nil, or_false,
      Bool.and_eq_false_iff]
    omega
  · rintro rfl
    exact absurd h (by decide)
  · rintro rfl
    exact absurd h (by decide)

namespace Forwarded

variable {ip : IPParser} {f : Forwarded} {a : Addr}

theorem plain_name (f : Forwarded) : ∀ c ∈ f.name, isSpace c = false ∧ c ≠ ',' ∧ c ≠ ';' := by
  intro c hc
  have hmem : c.toLower ∈ "for".toList := f.name_for ▸ List.mem_map_of_mem hc
  have halpha : ∀ c ∈ "for".toList, c.isAlpha = true := List.all_eq_true.1 (by decide)
  refine plain_of_isAlpha ?_
  by_cases hupper : c.isUpper = true
  · exact Bool.or_eq_true_iff.2 (.inl hupper)
  · have hlower : c.toLower = c := dif_neg fun h => hupper (decide_eq_true h)
    exact halpha c (hlower ▸ hmem)

theorem plain_param (h : f.node.Denotes ip a) : ∀ c ∈ f.param, isSpace c = false ∧ c ≠ ',' ∧ c ≠ ';' := by
  intro c hc
  simp only [param, List.mem_append, List.mem_cons] at hc
  rcases hc with hc | rfl | hc
  · exact f.plain_name c hc
  · decide
  · exact h.plain c hc

theorem length_name (f : Forwarded) : f.name.length = 3 := by
  rw [← List.length_map, f.name_for]
  rfl

theorem comma_notMem_of_blank {s : List Char} (h : ∀ c ∈ s, isSpace c = true) : ',' ∉ s := by
  intro hmem
  exact absurd (h _ hmem) (by decide)

theorem after_cases (f : Forwarded) : ((∀ c ∈ f.after, isSpace c = true) ∧ f.gap = []) ∨
    ∃ rest, f.after = f.gap ++ ',' :: rest ∧ ∀ c ∈ f.gap, isSpace c = true := by
  rcases f.after_end.2 with hblank | ⟨blanks, rest, hblanks, hafter⟩
  · exact .inl ⟨hblank, if_neg (comma_notMem_of_blank hblank)⟩
  · have hgap : f.gap = blanks := by
      rw [gap, hafter, if_pos (by simp), List.takeWhile_append_of_pos hblanks, List.takeWhile_cons_of_neg (by decide),
        List.append_nil]
    rw [hgap]
    exact .inr ⟨rest, hafter, hblanks⟩

theorem gap_blank (f : Forwarded) : ∀ c ∈ f.gap, isSpace c = true := by
  rcases f.after_cases with ⟨-, hnil⟩ | ⟨rest, -, hgap⟩
  · rw [hnil]
    exact List.forall_mem_nil _
  · exact hgap

theorem notMem_quotes_of_blank {c : Char} (h : isSpace c = true) : c ∉ ['"', '[', ']'] := by
  intro hmem
  have hall : ['"', '[', ']'].all (!isSpace ·) = true := by decide
  have hnot := List.all_eq_true.1 hall c hmem
  rw [h] at hnot
  cases hnot

/-- The piece with the parameter gives the node, without quotes and brackets. -/
theorem forAddr_param (h : f.node.Denotes ip a) :
    forAddr (f.lead ++ (f.param ++ f.after)) = some (f.node.bare ++ f.gap) := by
  have hplain := plain_param h
  have hne : f.param ≠ [] := by simp [param]
  have htrim : trimSpace (f.lead ++ (f.param ++ f.after)) = f.param ++ trimRight f.after :=
    trimSpace_append f.lead_blank hne (fun c hc => (hplain c hc).1) f.after
  have hfor : hasFor (f.param ++ trimRight f.after) = true := by
    rw [hasFor, List.isPrefixOf_iff_prefix, param, List.append_assoc, List.map_append, f.name_for]
    exact ⟨(f.node.text ++ trimRight f.after).map Char.toLower, by simp⟩
  have hcomma : ∀ c ∈ f.param, decide (c ≠ ',') = true := fun c hc => by simpa using (hplain c hc).2.1
  -- the list ends at the first comma, which is not inside the parameter
  have hfirst : extractFirstMatchFromIPList (f.param ++ trimRight f.after) = f.param ++ f.gap := by
    rw [extractFirstMatchFromIPList, List.takeWhile_append_of_pos hcomma]
    rcases f.after_cases with ⟨hblank, hgap⟩ | ⟨rest, hafter, hgap⟩
    · rw [trimRight_blank hblank, List.takeWhile_nil, hgap]
    · have hcomma' : ∀ c ∈ f.gap, decide (c ≠ ',') = true := by
        intro c hc
        simpa using fun heq : c = ',' => comma_notMem_of_blank hgap (heq ▸ hc)
      have htrim' : trimRight f.after = f.gap ++ ',' :: trimRight rest := by
        conv_lhs => rw [hafter]
        exact trimRight_append (by decide) f.gap rest
      rw [htrim', List.takeWhile_append_of_pos hcomma', List.takeWhile_cons_of_neg (by simp), List.append_nil]
  have hdrop : (f.param ++ f.gap).drop 4 = f.node.text ++ f.gap := by
    rw [param, List.append_assoc, List.drop_append, f.length_name]
    simp [f.length_name]
  -- quotes are removed everywhere, and the blanks after the node have none
  have hunquote : unquote f.gap = f.gap := by
    rw [unquote, List.filter_eq_self]
    intro c hc
    simpa using notMem_quotes_of_blank (f.gap_blank c hc)
  simp only [forAddr, htrim, hfor, if_true, hfirst, hdrop]
  rw [unquote_append, h.unquote_text, hunquote]

theorem splitOn_text (h : f.node.Denotes ip a) :
    ∃ later, f.text.splitOn ';' = f.frontPieces ++ (f.lead ++ (f.param ++ f.after)) :: later := by
  -- the parameter with the blanks around it is one piece
  have hpiece : ';' ∉ f.lead ++ (f.param ++ f.after) := by
    simp only [List.mem_append, not_or]
    refine ⟨fun hmem => ?_, fun hmem => ?_, f.after_end.1⟩
    · exact absurd (f.lead_blank _ hmem) (by decide)
    · exact (plain_param h _ hmem).2.2 rfl
  have hrest : ∃ later, (f.lead ++ (f.param ++ f.after) ++
      (match f.more with | none => [] | some more => ';' :: more)).splitOn ';' =
        (f.lead ++ (f.param ++ f.after)) :: later := by
    cases f.more with
    | none => exact ⟨[], by rw [List.append_nil, List.splitOn_eq_singleton hpiece]⟩
    | some more => exact ⟨_, List.splitOn_append_cons_self_of_not_mem hpiece more⟩
  obtain ⟨later, hlater⟩ := hrest
  refine ⟨later, ?_⟩
  unfold text frontPieces
  cases f.front with
  | none => exact hlater
  | some front =>
    rw [← hlater, List.append_assoc, List.singleton_append, List.splitOn_append_cons_self]

/-- The loop reaches the parameter unless a piece in front begins as it does. -/
theorem parseForwardedHeader_text (h : f.node.Denotes ip a) :
    parseForwardedHeader f.text = (f.frontPieces.findSome? forAddr).getD (f.node.bare ++ f.gap) := by
  obtain ⟨later, hsplit⟩ := splitOn_text h
  rw [parseForwardedHeader, hsplit, List.findSome?_append, List.findSome?_cons, forAddr_param h]
  cases f.frontPieces.findSome? forAddr with
  | none => rfl
  | some addr => rfl

theorem text_ne_nil (f : Forwarded) : f.text ≠ [] := by
  simp [text, param]

end Forwarded

/-! ## Reading the address -/

section Address

variable {ip : IPParser} {a : Addr} {t p : List Char}

/-- Valid is what an address can be read out of. -/
theorem isValidAddr_eq (net : NetParsers) {addr : List Char} (hne : addr ≠ []) :
    isValidAddr net addr = (addressOf net addr).isSome := by
  rw [isValidAddr, if_neg hne, addressOf]
  cases net.splitHostPort addr with
  | none => rfl
  | some ip => rfl

theorem addressOf_nil : addressOf ip.net [] = none := ip.nil

theorem addressOf_validated (addr remoteAddr : List Char) :
    addressOf ip.net (if isValidAddr ip.net addr then addr else remoteAddr) =
      (addressOf ip.net addr).or (addressOf ip.net remoteAddr) := by
  by_cases hne : addr = []
  · subst hne
    rw [addressOf_nil]
    rfl
  · rw [isValidAddr_eq ip.net hne]
    cases haddr : addressOf ip.net addr with
    | none => rfl
    | some a => exact haddr

theorem addressOf_of_none {addr : List Char} (hsplit : splitHostPort addr = none) :
    addressOf ip.net addr = ip.parse addr := by
  change ip.parse ((splitHostPort addr).getD addr) = _
  rw [hsplit, Option.getD_none]

theorem addressOf_of_some {addr : List Char} (hsplit : splitHostPort addr = some t) :
    addressOf ip.net addr = ip.parse t := by
  change ip.parse ((splitHostPort addr).getD addr) = _
  rw [hsplit, Option.getD_some]

theorem ne_nil_of_parse (h : ip.parse t = some a) : t ≠ [] := by
  rintro rfl
  rw [ip.nil] at h
  cases h

theorem head_ne_bracket {s : List Char} (h : ∀ c ∈ s, AddrChar c) : s.head? ≠ some '[' := by
  intro hhead
  exact (h _ (List.mem_of_mem_head? hhead)).notMem_quotes (by decide)

theorem colon_notMem4 (h : ip.parse t = some a) (h4 : a.is4 = true) : ':' ∉ t := by
  intro hmem
  rcases ip.chars4 h h4 _ hmem with hdigit | hdot
  · exact absurd hdigit (by decide)
  · exact absurd hdot (by decide)

/-- An IPv4 address is split from what stands behind a colon. -/
theorem splitHostPort4 (h : ip.parse t = some a) (h4 : a.is4 = true) (hp : ∀ c ∈ p, c ∉ [':', '[', ']']) :
    splitHostPort (t ++ ':' :: p) = some t := by
  have hcolon : ':' ∉ p := fun hmem => hp _ hmem (by decide)
  have hhead : (t ++ ':' :: p).head? ≠ some '[' := by
    obtain ⟨c, t', rfl⟩ := List.exists_cons_of_ne_nil (ne_nil_of_parse h)
    exact @head_ne_bracket (c :: t') (ip.addrChar h)
  have hbracket : ∀ b ∈ ['[', ']'], b ∉ t ++ ':' :: p := by
    intro b hb hmem
    rcases List.mem_append.1 hmem with hmem | hmem
    · exact (ip.addrChar h b hmem).notMem_quotes (List.mem_cons_of_mem _ hb)
    · rcases List.mem_cons.1 hmem with rfl | hmem
      · exact absurd hb (by decide)
      · exact hp b hmem (List.mem_cons_of_mem _ hb)
  rw [splitHostPort_append hcolon hhead, if_neg (colon_notMem4 h h4), if_neg]
  rintro (hmem | hmem)
  · exact hbracket _ (by decide) hmem
  · exact hbracket _ (by decide) hmem

/-- An IPv6 address is not, with or without more behind it. -/
theorem splitHostPort6 (h : ip.parse t = some a) (h6 : a.is4 = false) (s : List Char) :
    splitHostPort (t ++ s) = none := by
  have hcount := ip.colons6 h h6
  obtain ⟨c, t', rfl⟩ := List.exists_cons_of_ne_nil (ne_nil_of_parse h)
  refine splitHostPort_of_count ?_ ?_
  · rw [List.count_append]
    omega
  · exact @head_ne_bracket (c :: t') (ip.addrChar h)

namespace Node.Denotes

variable {node : Node} {port : Option (List Char)} {gap : List Char}

/-- Blanks behind the port of an IPv4 address do not matter. -/
theorem addressOf_port4 (h : (Node.v4 t (some p)).Denotes ip a) (hgap : ∀ c ∈ gap, isSpace c = true) :
    addressOf ip.net ((Node.v4 t (some p)).bare ++ gap) = some a := by
  obtain ⟨⟨hparse, h4⟩, hport⟩ := h
  have hsplit : splitHostPort (t ++ ':' :: (p ++ gap)) = some t := by
    refine splitHostPort4 hparse h4 fun c hc hmem => ?_
    have hall : [':', '[', ']'].all (fun c => !c.isDigit && !isSpace c) = true := by decide
    have hnot := List.all_eq_true.1 hall c hmem
    rcases List.mem_append.1 hc with hc | hc
    · simp [hport p rfl c hc] at hnot
    · simp [hgap c hc] at hnot
  have htext : (Node.v4 t (some p)).bare ++ gap = t ++ ':' :: (p ++ gap) := by simp [bare, portText]
  rw [htext, addressOf_of_some hsplit, hparse]

/-- Any other node is read as it stands. -/
theorem addressOf_bare (h : node.Denotes ip a) (hnode : ∀ t p, node ≠ .v4 t (some p)) (hgap : ':' ∉ gap) :
    addressOf ip.net (node.bare ++ gap) = ip.parse (node.bare ++ gap) := by
  refine addressOf_of_none ?_
  cases node with
  | v4 t port =>
    cases port with
    | none =>
      refine splitHostPort_of_notMem fun hmem => ?_
      rw [bare, portText, List.append_nil] at hmem
      rcases List.mem_append.1 hmem with hmem | hmem
      · exact colon_notMem4 h.addr.1 h.addr.2 hmem
      · exact hgap hmem
    | some p => exact absurd rfl (hnode t p)
  | v6 t port =>
    rw [bare, List.append_assoc]
    exact splitHostPort6 h.addr.1 h.addr.2 _

theorem parse_bare (h : node.Denotes ip a) (hport : node.port = none) : ip.parse node.bare = some a := by
  cases node with
  | v4 t port =>
    cases hport
    rw [bare, portText, List.append_nil]
    exact h.addr.1
  | v6 t port =>
    cases hport
    rw [bare, portText, List.append_nil]
    exact h.addr.1

end Node.Denotes

theorem parse_eq_none_of_blank {s : List Char} {c : Char} (hc : c ∈ s) (hblank : isSpace c = true) :
    ip.parse s = none := by
  cases hparse : ip.parse s with
  | none => rfl
  | some a =>
    have hplain := (ip.addrChar hparse c hc).plain.1
    rw [hblank] at hplain
    cases hplain

end Address

namespace Forwarded

variable {ip : IPParser} {f : Forwarded} {a : Addr} {r : Incoming}

theorem addressOf_text (hnode : f.node.Denotes ip a) (hfwd : r.header forwardedHeader = f.text) :
    addressOf ip.net (getRemoteAddr ip.net true "" r) =
      (addressOf ip.net ((f.rival r).getD (f.node.bare ++ f.gap))).or (addressOf ip.net r.remoteAddr) := by
  have hparse : parseDefaultProxyHeaders r = (f.rival r).getD (f.node.bare ++ f.gap) := by
    unfold parseDefaultProxyHeaders rival
    split
    · rfl
    · split
      · rfl
      · rw [hfwd, if_pos f.text_ne_nil, parseForwardedHeader_text hnode]
  rw [← addressOf_validated, ← hparse]
  rfl

/-- What is read when the node is not found: the address in its place, an IPv6 address and its port as one
address, or the address of the connection. -/
def instead (ip : IPParser) (f : Forwarded) (r : Incoming) : Option Addr :=
  (match f.rival r with
    | some other => addressOf ip.net other
    | none => if f.gap = [] then ip.parse f.node.bare else none).or (addressOf ip.net r.remoteAddr)

theorem addressOf_found (hnode : f.node.Denotes ip a) (h : f.Found r) :
    addressOf ip.net ((f.rival r).getD (f.node.bare ++ f.gap)) = some a := by
  rw [h.alone, Option.getD_none]
  by_cases hv4 : ∃ t p, f.node = .v4 t (some p)
  · obtain ⟨t, p, ht⟩ := hv4
    rw [ht] at hnode ⊢
    exact hnode.addressOf_port4 f.gap_blank
  · have hother : ∀ t p, f.node ≠ .v4 t (some p) := fun t p heq => hv4 ⟨t, p, heq⟩
    have hport : f.node.port = none := by
      cases hn : f.node with
      | v4 t port =>
        cases port with
        | none => rfl
        | some p => exact absurd hn (hother t p)
      | v6 t port =>
        cases port with
        | none => rfl
        | some p => exact absurd hn (h.split t p)
    rw [h.tight.resolve_right hv4, hnode.addressOf_bare hother List.not_mem_nil, List.append_nil,
      hnode.parse_bare hport]

theorem addressOf_notFound (hnode : f.node.Denotes ip a) (h : ¬f.Found r) :
    (addressOf ip.net ((f.rival r).getD (f.node.bare ++ f.gap))).or (addressOf ip.net r.remoteAddr) =
      f.instead ip r := by
  unfold instead
  cases hrival : f.rival r with
  | some other => rfl
  | none =>
    have hother : ∀ t p, f.node ≠ .v4 t (some p) := fun t p heq =>
      h ⟨hrival, .inr ⟨t, p, heq⟩, fun t' p' heq' => by rw [heq] at heq'; cases heq'⟩
    have hcolon : ':' ∉ f.gap := fun hmem => absurd (f.gap_blank _ hmem) (by decide)
    rw [Option.getD_none, hnode.addressOf_bare hother hcolon]
    by_cases hgap : f.gap = []
    · simp only [hgap, List.append_nil, if_true]
    · obtain ⟨c, rest, hcons⟩ := List.exists_cons_of_ne_nil hgap
      have hmem : c ∈ f.gap := hcons ▸ List.mem_cons_self
      rw [parse_eq_none_of_blank (List.mem_append_right _ hmem) (f.gap_blank c hmem)]
      simp only [hgap, if_false]

end Forwarded

/-- With proxying enabled and without a custom header, a `Forwarded` value with a parameter `for=node` yields
the address of the node exactly when the node is found, or when what is read instead happens to be the
same address. -/
theorem forwarded_address_iff (ip : IPParser) (f : Forwarded) {a : Addr} (hnode : f.node.Denotes ip a) (r : Incoming)
    (hfwd : r.header forwardedHeader = f.text) :
    addressOf ip.net (getRemoteAddr ip.net true "" r) = some a ↔ f.Found r ∨ ¬f.Found r ∧ f.instead ip r = some a := by
  rw [Forwarded.addressOf_text hnode hfwd]
  by_cases hfound : f.Found r
  · rw [Forwarded.addressOf_found hnode hfound]
    exact iff_of_true rfl (.inl hfound)
  · rw [Forwarded.addressOf_notFound hnode hfound]
    constructor
    · intro h
      exact .inr ⟨hfound, h⟩
    · rintro (h | h)
      · exact absurd h hfound
      · exact h.2

/-! ## Three values -/

/-- `2001:db8:cafe::17`. -/
def cafeAddr : Addr := ⟨false, [0x20, 0x01, 0x0d, 0xb8, 0xca, 0xfe, 0, 0, 0, 0, 0, 0, 0, 0, 0, 0x17], rfl⟩

/-- `2001:db8:cafe::17:4711`. -/
def cafePortAddr : Addr := ⟨false, [0x20, 0x01, 0x0d, 0xb8, 0xca, 0xfe, 0, 0, 0, 0, 0, 0, 0, 0x17, 0x47, 0x11], rfl⟩

def samplePairs : List (List Char × Addr) :=
  [("10.1.2.3".toList, addr4 10 1 2 3), ("2001:db8:cafe::17".toList, cafeAddr),
    ("2001:db8:cafe::17:4711".toList, cafePortAddr)]

theorem mem_samplePairs {t : List Char} {a : Addr} (h : samplePairs.lookup t = some a) : (t, a) ∈ samplePairs := by
  obtain ⟨l₁, l₂, heq, _⟩ := List.lookup_eq_some_iff.1 h
  rw [heq]
  simp

/-- A parser of these three texts. -/
def sampleIP : IPParser where
  parse t := samplePairs.lookup t
  nil := by decide
  chars4 h h4 c hc := by
    have hall : samplePairs.all (fun e => !e.2.is4 || e.1.all fun c => c.isDigit || c == '.') = true := by decide
    have hpair := List.all_eq_true.1 hall _ (mem_samplePairs h)
    simp only [h4, Bool.not_true, Bool.false_or] at hpair
    simpa using List.all_eq_true.1 hpair c hc
  chars6 h h6 c hc := by
    have hall : samplePairs.all (fun e => e.2.is4 ||
        e.1.all fun c => c.isDigit || "abcdefABCDEF:.".toList.contains c) = true := by decide
    have hpair := List.all_eq_true.1 hall _ (mem_samplePairs h)
    simp only [h6, Bool.false_or] at hpair
    simpa only [Bool.or_eq_true, List.contains_iff_mem] using List.all_eq_true.1 hpair c hc
  colons6 h h6 := by
    have hall : ∀ e ∈ samplePairs, e.2.is4 = false → 2 ≤ e.1.count ':' := by decide
    exact hall _ (mem_samplePairs h) h6

/-- A request with only this header. -/
def forwardedRequest (value : String) : Incoming where
  header name := if name = forwardedHeader then value.toList else []
  remoteAddr := "192.0.2.1:4000".toList

/-- `by=_hidden; For=10.1.2.3:80,for=unknown`. -/
def hostForwarded : Forwarded where
  front := some "by=_hidden".toList
  lead := [' ']
  name := "For".toList
  node := .v4 "10.1.2.3".toList (some "80".toList)
  after := ",for=unknown".toList
  more := none
  lead_blank := List.all_eq_true.1 (by decide)
  name_for := by decide
  after_end := ⟨by decide, .inr ⟨[], "for=unknown".toList, List.all_eq_true.1 (by decide), rfl⟩⟩

/-- `for="[2001:db8:cafe::17]:4711"`. -/
def cafeForwarded : Forwarded where
  front := none
  lead := []
  name := "for".toList
  node := .v6 "2001:db8:cafe::17".toList (some "4711".toList)
  after := []
  more := none
  lead_blank := List.all_eq_true.1 (by decide)
  name_for := by decide
  after_end := ⟨by decide, .inl (List.all_eq_true.1 (by decide))⟩

theorem hostForwarded_found : hostForwarded.Found (forwardedRequest "by=_hidden; For=10.1.2.3:80,for=unknown") where
  alone := by decide
  tight := .inl (by decide)
  split := nofun

theorem digits_of_some {p q : List Char} (h : p.all Char.isDigit = true) (hpq : some p = some q) :
    ∀ c ∈ q, c.isDigit = true := by
  cases hpq
  exact List.all_eq_true.1 h

theorem forwarded_address_host :
    addressOf sampleIP.net (getRemoteAddr sampleIP.net true ""
      (forwardedRequest "by=_hidden; For=10.1.2.3:80,for=unknown")) = some (addr4 10 1 2 3) :=
  (forwarded_address_iff sampleIP hostForwarded ⟨⟨by decide, rfl⟩, fun p h => digits_of_some (by decide) h⟩ _
    (by decide)).2 (.inl hostForwarded_found)

/-- With every parser that reads the two addresses as written, an IPv6 address with the port 4711 is taken
for one that ends in 4711. A blank before a comma leaves the address of the connection, and a quoted text
can stand in for the parameter. -/
theorem port_becomes_address :
    (sampleIP.parse "2001:db8:cafe::17".toList = some cafeAddr ∧
      sampleIP.parse "2001:db8:cafe::17:4711".toList = some cafePortAddr) ∧
    ∀ ip : IPParser, ip.parse "2001:db8:cafe::17".toList = some cafeAddr →
      ip.parse "2001:db8:cafe::17:4711".toList = some cafePortAddr →
      (cafeForwarded.text = "for=\"[2001:db8:cafe::17]:4711\"".toList ∧ cafeForwarded.node.Denotes ip cafeAddr ∧
        addressOf ip.net (getRemoteAddr ip.net true "" (forwardedRequest "for=\"[2001:db8:cafe::17]:4711\"")) =
          some cafePortAddr ∧ cafePortAddr ≠ cafeAddr) ∧
      getRemoteAddr ip.net true "" (forwardedRequest "for=10.1.2.3 , for=10.9.9.9") = "192.0.2.1:4000".toList ∧
      parseDefaultProxyHeaders (forwardedRequest "by=\"a;for=10.9.9.9\";for=10.1.2.3") = "10.9.9.9".toList := by
  refine ⟨⟨by decide, by decide⟩, fun ip hcafe hport => ?_⟩
  have hdenotes : cafeForwarded.node.Denotes ip cafeAddr :=
    ⟨⟨hcafe, rfl⟩, fun p h => digits_of_some (by decide) h⟩
  refine ⟨⟨by decide, hdenotes, ?_, by decide⟩, ?_, by decide⟩
  · -- without brackets the port reads as the last group of the address
    have hnotFound : ¬cafeForwarded.Found (forwardedRequest "for=\"[2001:db8:cafe::17]:4711\"") :=
      fun h => h.split _ _ rfl
    rw [Forwarded.addressOf_text hdenotes (by decide), Forwarded.addressOf_notFound hdenotes hnotFound]
    change (ip.parse "2001:db8:cafe::17:4711".toList).or _ = _
    rw [hport]
    rfl
  · have hparse : parseDefaultProxyHeaders (forwardedRequest "for=10.1.2.3 , for=10.9.9.9") = "10.1.2.3 ".toList := by
      decide
    -- a blank before the comma stays, and no address has one
    have hnone : ip.parse "10.1.2.3 ".toList = none := by
      cases h : ip.parse "10.1.2.3 ".toList with
      | none => rfl
      | some a => exact absurd (ip.addrChar h ' ' (by decide)).plain.1 (by decide)
    have hvalid : isValidAddr ip.net "10.1.2.3 ".toList = false := by
      rw [isValidAddr_eq ip.net (by decide), addressOf_of_none (by decide), hnone]
      rfl
    simp only [getRemoteAddr, if_true, ne_eq, not_true_eq_false, if_false, hparse, hvalid]
    rfl

end Chproxy.ProxyHandler
