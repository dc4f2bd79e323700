namespace FindSelect

/-- What is wrong with the shape of a find call around its arguments. -/
inductive CallFault where
  /-- There is no point in the call. -/
  | notACall (call : String)
  /-- The first name is not `db`. -/
  | notOnDatabase (name : String)
  /-- There is no point after the table. -/
  | noMethod (call : String)
  /-- Nothing stands where the table should. -/
  | noTable (call : String)
  /-- The method is not `find`. -/
  | otherMethod (text : String)
  /-- The arguments are not in parentheses. -/
  | noParentheses (text : String)
  /-- The first argument does not start with a brace. -/
  | queryNotDocument (text : String)
  /-- The first argument is followed by something other than a comma. -/
  | textAfterQuery (text : String)
  /-- A fault found by a caller with checks of its own, in its words. -/
  | described (detail : String)
  deriving DecidableEq, Repr

def CallFault.message : CallFault → String
  | .notACall call => "expected 'db.<table>.find(...)', got '" ++ call ++ "'"
  | .notOnDatabase name => "expected 'db' before the first '.', got '" ++ name ++ "'"
  | .noMethod call => "missing '.find(...)' in '" ++ call ++ "'"
  | .noTable call => "missing table name in '" ++ call ++ "'"
  | .otherMethod text => "only 'find' is supported, got '" ++ text ++ "'"
  | .noParentheses text => "arguments must be enclosed in parentheses: '" ++ text ++ "'"
  | .queryNotDocument text => "query argument must be a document: '" ++ text ++ "'"
  | .textAfterQuery text => "unexpected text after query argument: '" ++ text ++ "'"
  | .described detail => detail

/-- Why a text could not be read. Most faults carry the text of the document or
    list in which they were found. -/
inductive SyntaxError where
  /-- A quoted text in a list does not end. -/
  | openQuote (text : String)
  /-- A list does not stand in brackets. -/
  | unbalancedList (text : String)
  /-- A document in a condition list does not end. -/
  | unbalancedBraces (text : String)
  /-- The first argument of a call does not end. -/
  | malformedArguments (text : String)
  /-- An operator map does not end, or a value or colon is missing in it. -/
  | openOperators (text : String)
  /-- A document does not end, or a value is missing in it. -/
  | openDocument (text : String)
  /-- An entry has an empty key. -/
  | valueBeforeKey (text : String)
  /-- A bare token is no scalar. -/
  | malformedScalar (text : String)
  /-- A call has the wrong shape. -/
  | invalidCall (fault : CallFault)
  /-- A token was asked for past the end of the text. -/
  | overrun
  deriving DecidableEq, Repr

def SyntaxError.message : SyntaxError → String
  | .openQuote text => "Unterminated quote in '" ++ text ++ "'"
  | .unbalancedList text => "Unbalanced value list: '" ++ text ++ "'"
  | .unbalancedBraces text => "Unbalanced braces in condition list: '" ++ text ++ "'"
  | .malformedArguments text =>
    "Malformed opening/closing braces in arguments: '" ++ text ++ "'"
  | .openOperators text => "Unterminated operator map: '" ++ text ++ "'"
  | .openDocument text => "Unterminated document: '" ++ text ++ "'"
  | .valueBeforeKey text => "Value found before any key in '" ++ text ++ "'"
  | .malformedScalar text =>
    "Malformed value '" ++ text ++ "': expected null, true, false, or a number"
  | .invalidCall fault => "Invalid find call: " ++ fault.message
  | .overrun => "Token read past the end of the text"

end FindSelect
