import EndpointAudit.Command.Run

/-!
# The console

Outcomes as lines of plain text: style tags are left out, and the cells of a table stand in columns.
-/

namespace EndpointAudit

namespace Console

/-- The widths of columns that hold two rows. -/
def widest : List Nat → List Nat → List Nat
  | [], ws => ws
  | vs, [] => vs
  | v :: vs, w :: ws => max v w :: widest vs ws

def padded (width : Nat) (cell : String) : String :=
  cell ++ String.ofList (List.replicate (width - cell.length) ' ')

/-- A row as rows of single lines. -/
def singleLines (row : List String) : List (List String) :=
  let cells := row.map (Text.splitOn '\n')
  let height := cells.foldl (fun h cell => max h cell.length) 0
  (List.range height).map fun i => cells.map (·.getD i "")

def columns (rows : List (List String)) : List String :=
  let widths := rows.foldr (fun row ws => widest (row.map String.length) ws) []
  rows.map fun row => Text.join "  " (widths.zipWith padded row)

end Console

def Printed.lines : Printed → List String
  | .line markup => [Text.plain markup]
  | .table title columns rows =>
    let cells := columns.map (·.1) :: rows.map (·.map Text.plain)
    Text.plain title :: Console.columns (cells.flatMap Console.singleLines)

namespace Command

def UsageError.message : UsageError → String
  | .missingParameter => "An argument is missing."
  | .badParameter => "An argument has a value that it cannot take."
  | .noSuchOption => "There is no such option."
  | .badOptionUsage => "An option lacks its value, or takes none."
  | .noSuchCommand => "There is no such command."
  | .missingCommand => "A command is missing."
  | .extraArgument => "There are too many arguments."

def Failure.line (f : Failure) : String :=
  "Error: " ++ f.message?.getD (match f with
    | .unreadable file _ => "Cannot read report " ++ file
    | .scan (.brokenArchive entry) => entry ++ " is not an archive"
    | .scan (.badDescriptor descriptor) => descriptor ++ " is not a method descriptor"
    | .outputIsFolder file => file ++ " is a folder"
    | .console complaint => complaint
    | _ => "")

def Outcome.lines (o : Outcome) : List String := o.prints.flatMap (·.lines)

/-- The lines that an outcome puts into the log. Remarks are shown if everything is. -/
def Outcome.logLines (o : Outcome) : List String :=
  let remarks := if o.logging.level = .debug then o.remarks else []
  (remarks ++ o.notices).map (·.line) ++ (o.failure.map (·.line)).toList

end Command

end EndpointAudit
