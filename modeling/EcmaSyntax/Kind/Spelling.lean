import EcmaSyntax.Kind.Basic

/-! # Spelling of words and punctuators

Each keyword and each punctuator has one spelling. A name is looked up among the keywords when a
token has been read, and diagnostics quote the spelling of a token that was expected. -/
namespace EcmaSyntax.Kind

/-- The spelling of a keyword. -/
def keywordText : Kind → Option String
  | .breakKeyword => some "break"
  | .caseKeyword => some "case"
  | .catchKeyword => some "catch"
  | .classKeyword => some "class"
  | .constKeyword => some "const"
  | .continueKeyword => some "continue"
  | .debuggerKeyword => some "debugger"
  | .defaultKeyword => some "default"
  | .deleteKeyword => some "delete"
  | .doKeyword => some "do"
  | .elseKeyword => some "else"
  | .enumKeyword => some "enum"
  | .exportKeyword => some "export"
  | .extendsKeyword => some "extends"
  | .falseKeyword => some "false"
  | .finallyKeyword => some "finally"
  | .forKeyword => some "for"
  | .functionKeyword => some "function"
  | .ifKeyword => some "if"
  | .importKeyword => some "import"
  | .inKeyword => some "in"
  | .instanceOfKeyword => some "instanceof"
  | .newKeyword => some "new"
  | .nullKeyword => some "null"
  | .returnKeyword => some "return"
  | .superKeyword => some "super"
  | .switchKeyword => some "switch"
  | .thisKeyword => some "this"
  | .throwKeyword => some "throw"
  | .trueKeyword => some "true"
  | .tryKeyword => some "try"
  | .typeOfKeyword => some "typeof"
  | .varKeyword => some "var"
  | .voidKeyword => some "void"
  | .whileKeyword => some "while"
  | .withKeyword => some "with"
  | .implementsKeyword => some "implements"
  | .interfaceKeyword => some "interface"
  | .letKeyword => some "let"
  | .packageKeyword => some "package"
  | .privateKeyword => some "private"
  | .protectedKeyword => some "protected"
  | .publicKeyword => some "public"
  | .staticKeyword => some "static"
  | .yieldKeyword => some "yield"
  | .abstractKeyword => some "abstract"
  | .accessorKeyword => some "accessor"
  | .asKeyword => some "as"
  | .assertsKeyword => some "asserts"
  | .anyKeyword => some "any"
  | .asyncKeyword => some "async"
  | .awaitKeyword => some "await"
  | .booleanKeyword => some "boolean"
  | .constructorKeyword => some "constructor"
  | .declareKeyword => some "declare"
  | .getKeyword => some "get"
  | .inferKeyword => some "infer"
  | .isKeyword => some "is"
  | .keyOfKeyword => some "keyof"
  | .moduleKeyword => some "module"
  | .namespaceKeyword => some "namespace"
  | .neverKeyword => some "never"
  | .readonlyKeyword => some "readonly"
  | .numberKeyword => some "number"
  | .objectKeyword => some "object"
  | .satisfiesKeyword => some "satisfies"
  | .setKeyword => some "set"
  | .stringKeyword => some "string"
  | .symbolKeyword => some "symbol"
  | .typeKeyword => some "type"
  | .undefinedKeyword => some "undefined"
  | .uniqueKeyword => some "unique"
  | .unknownKeyword => some "unknown"
  | .fromKeyword => some "from"
  | .globalKeyword => some "global"
  | .bigIntKeyword => some "bigint"
  | .overrideKeyword => some "override"
  | .ofKeyword => some "of"
  | _ => none

/-- The spelling of a punctuator. -/
def punctuatorText : Kind → Option String
  | .openBraceToken => some "\x7b"
  | .closeBraceToken => some "\x7d"
  | .openParenToken => some "("
  | .closeParenToken => some ")"
  | .openBracketToken => some "["
  | .closeBracketToken => some "]"
  | .dotToken => some "."
  | .dotDotDotToken => some "..."
  | .semicolonToken => some ";"
  | .commaToken => some ","
  | .questionDotToken => some "?."
  | .lessThanToken => some "<"
  | .lessThanSlashToken => some "</"
  | .greaterThanToken => some ">"
  | .lessThanEqualsToken => some "<="
  | .greaterThanEqualsToken => some ">="
  | .equalsEqualsToken => some "=="
  | .exclamationEqualsToken => some "!="
  | .equalsEqualsEqualsToken => some "==="
  | .exclamationEqualsEqualsToken => some "!=="
  | .equalsGreaterThanToken => some "=>"
  | .plusToken => some "+"
  | .minusToken => some "-"
  | .asteriskToken => some "*"
  | .asteriskAsteriskToken => some "**"
  | .slashToken => some "/"
  | .percentToken => some "%"
  | .plusPlusToken => some "++"
  | .minusMinusToken => some "--"
  | .lessThanLessThanToken => some "<<"
  | .greaterThanGreaterThanToken => some ">>"
  | .greaterThanGreaterThanGreaterThanToken => some ">>>"
  | .ampersandToken => some "&"
  | .barToken => some "|"
  | .caretToken => some "^"
  | .exclamationToken => some "!"
  | .tildeToken => some "~"
  | .ampersandAmpersandToken => some "&&"
  | .barBarToken => some "||"
  | .questionToken => some "?"
  | .colonToken => some ":"
  | .atToken => some "@"
  | .questionQuestionToken => some "??"
  | .backtickToken => some "`"
  | .hashToken => some "#"
  | .equalsToken => some "="
  | .plusEqualsToken => some "+="
  | .minusEqualsToken => some "-="
  | .asteriskEqualsToken => some "*="
  | .asteriskAsteriskEqualsToken => some "**="
  | .slashEqualsToken => some "/="
  | .percentEqualsToken => some "%="
  | .lessThanLessThanEqualsToken => some "<<="
  | .greaterThanGreaterThanEqualsToken => some ">>="
  | .greaterThanGreaterThanGreaterThanEqualsToken => some ">>>="
  | .ampersandEqualsToken => some "&="
  | .barEqualsToken => some "|="
  | .caretEqualsToken => some "^="
  | .barBarEqualsToken => some "||="
  | .ampersandAmpersandEqualsToken => some "&&="
  | .questionQuestionEqualsToken => some "??="
  | _ => none

/-- The spelling of a token that has only one. -/
def text (k : Kind) : Option String := k.punctuatorText <|> k.keywordText

/-- The keyword spelled by a text. -/
def ofKeyword? : String → Option Kind
  | "break" => some .breakKeyword
  | "case" => some .caseKeyword
  | "catch" => some .catchKeyword
  | "class" => some .classKeyword
  | "const" => some .constKeyword
  | "continue" => some .continueKeyword
  | "debugger" => some .debuggerKeyword
  | "default" => some .defaultKeyword
  | "delete" => some .deleteKeyword
  | "do" => some .doKeyword
  | "else" => some .elseKeyword
  | "enum" => some .enumKeyword
  | "export" => some .exportKeyword
  | "extends" => some .extendsKeyword
  | "false" => some .falseKeyword
  | "finally" => some .finallyKeyword
  | "for" => some .forKeyword
  | "function" => some .functionKeyword
  | "if" => some .ifKeyword
  | "import" => some .importKeyword
  | "in" => some .inKeyword
  | "instanceof" => some .instanceOfKeyword
  | "new" => some .newKeyword
  | "null" => some .nullKeyword
  | "return" => some .returnKeyword
  | "super" => some .superKeyword
  | "switch" => some .switchKeyword
  | "this" => some .thisKeyword
  | "throw" => some .throwKeyword
  | "true" => some .trueKeyword
  | "try" => some .tryKeyword
  | "typeof" => some .typeOfKeyword
  | "var" => some .varKeyword
  | "void" => some .voidKeyword
  | "while" => some .whileKeyword
  | "with" => some .withKeyword
  | "implements" => some .implementsKeyword
  | "interface" => some .interfaceKeyword
  | "let" => some .letKeyword
  | "package" => some .packageKeyword
  | "private" => some .privateKeyword
  | "protected" => some .protectedKeyword
  | "public" => some .publicKeyword
  | "static" => some .staticKeyword
  | "yield" => some .yieldKeyword
  | "abstract" => some .abstractKeyword
  | "accessor" => some .accessorKeyword
  | "as" => some .asKeyword
  | "asserts" => some .assertsKeyword
  | "any" => some .anyKeyword
  | "async" => some .asyncKeyword
  | "await" => some .awaitKeyword
  | "boolean" => some .booleanKeyword
  | "constructor" => some .constructorKeyword
  | "declare" => some .declareKeyword
  | "get" => some .getKeyword
  | "infer" => some .inferKeyword
  | "is" => some .isKeyword
  | "keyof" => some .keyOfKeyword
  | "module" => some .moduleKeyword
  | "namespace" => some .namespaceKeyword
  | "never" => some .neverKeyword
  | "readonly" => some .readonlyKeyword
  | "number" => some .numberKeyword
  | "object" => some .objectKeyword
  | "satisfies" => some .satisfiesKeyword
  | "set" => some .setKeyword
  | "string" => some .stringKeyword
  | "symbol" => some .symbolKeyword
  | "type" => some .typeKeyword
  | "undefined" => some .undefinedKeyword
  | "unique" => some .uniqueKeyword
  | "unknown" => some .unknownKeyword
  | "from" => some .fromKeyword
  | "global" => some .globalKeyword
  | "bigint" => some .bigIntKeyword
  | "override" => some .overrideKeyword
  | "of" => some .ofKeyword
  | _ => none

end EcmaSyntax.Kind
