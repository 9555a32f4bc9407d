/-! # Kinds of tokens and tree nodes

Every token and every node carries one kind. Kinds are listed in a fixed order, so that the
reserved words, the words reserved in strict code only, the contextual words, the punctuators, the
assignment operators and the type nodes each form one run of the list. -/
namespace EcmaSyntax

/-- What a token or a tree node is. -/
inductive Kind
  | unknown | endOfFileToken
  | numericLiteral | bigIntLiteral | stringLiteral | jsxText | regularExpressionLiteral
  | noSubstitutionTemplateLiteral
  | templateHead | templateMiddle | templateTail
  | openBraceToken | closeBraceToken | openParenToken | closeParenToken | openBracketToken
  | closeBracketToken | dotToken | dotDotDotToken | semicolonToken | commaToken
  | questionDotToken | lessThanToken | lessThanSlashToken | greaterThanToken
  | lessThanEqualsToken | greaterThanEqualsToken | equalsEqualsToken | exclamationEqualsToken
  | equalsEqualsEqualsToken | exclamationEqualsEqualsToken | equalsGreaterThanToken | plusToken
  | minusToken | asteriskToken | asteriskAsteriskToken | slashToken | percentToken
  | plusPlusToken | minusMinusToken | lessThanLessThanToken | greaterThanGreaterThanToken
  | greaterThanGreaterThanGreaterThanToken | ampersandToken | barToken | caretToken
  | exclamationToken | tildeToken | ampersandAmpersandToken | barBarToken | questionToken
  | colonToken | atToken | questionQuestionToken | backtickToken | hashToken
  | equalsToken | plusEqualsToken | minusEqualsToken | asteriskEqualsToken
  | asteriskAsteriskEqualsToken | slashEqualsToken | percentEqualsToken
  | lessThanLessThanEqualsToken | greaterThanGreaterThanEqualsToken
  | greaterThanGreaterThanGreaterThanEqualsToken | ampersandEqualsToken | barEqualsToken
  | caretEqualsToken | barBarEqualsToken | ampersandAmpersandEqualsToken
  | questionQuestionEqualsToken
  | identifier | privateIdentifier
  | breakKeyword | caseKeyword | catchKeyword | classKeyword | constKeyword | continueKeyword
  | debuggerKeyword | defaultKeyword | deleteKeyword | doKeyword | elseKeyword | enumKeyword
  | exportKeyword | extendsKeyword | falseKeyword | finallyKeyword | forKeyword | functionKeyword
  | ifKeyword | importKeyword | inKeyword | instanceOfKeyword | newKeyword | nullKeyword
  | returnKeyword | superKeyword | switchKeyword | thisKeyword | throwKeyword | trueKeyword
  | tryKeyword | typeOfKeyword | varKeyword | voidKeyword | whileKeyword | withKeyword
  | implementsKeyword | interfaceKeyword | letKeyword | packageKeyword | privateKeyword
  | protectedKeyword | publicKeyword | staticKeyword | yieldKeyword
  | abstractKeyword | accessorKeyword | asKeyword | assertsKeyword | anyKeyword | asyncKeyword
  | awaitKeyword | booleanKeyword | constructorKeyword | declareKeyword | getKeyword
  | inferKeyword | isKeyword | keyOfKeyword | moduleKeyword | namespaceKeyword | neverKeyword
  | readonlyKeyword | numberKeyword | objectKeyword | satisfiesKeyword | setKeyword
  | stringKeyword | symbolKeyword | typeKeyword | undefinedKeyword | uniqueKeyword
  | unknownKeyword | fromKeyword | globalKeyword | bigIntKeyword | overrideKeyword | ofKeyword
  | scriptBody | moduleBody
  | qualifiedName | computedPropertyName
  | typeParameter | formalParameter | formalParameterList | decorator
  | propertySignature | methodSignature | callSignature | constructSignature | indexSignature
  | typePredicate | typeReference | functionType | constructorType | typeQuery | typeLiteral
  | arrayType | tupleType | optionalType | restType | unionType | intersectionType
  | conditionalType | inferType | parenthesizedType | thisType | typeOperator | indexedAccessType
  | literalType
  | arrayLiteralExpression | objectLiteralExpression | propertyAccessExpression
  | elementAccessExpression | callExpression | newExpression | taggedTemplateExpression
  | parenthesizedExpression | functionExpression | arrowFunction | arrowParameters | argumentList
  | prefixUnaryExpression | postfixUnaryExpression | binaryExpression | assignmentExpression
  | conditionalExpression | templateExpression | yieldExpression | awaitExpression
  | spreadElement | classExpression | omittedExpression | asExpression | satisfiesExpression
  | nonNullExpression | metaProperty
  | templateSpan
  | propertyAssignment | shorthandPropertyAssignment
  | methodDefinition | getAccessor | setAccessor | constructor | propertyDefinition
  | semicolonClassElement | classStaticBlock
  | block | emptyStatement | variableStatement | lexicalDeclaration | expressionStatement
  | ifStatement | doStatement | whileStatement | forStatement | forInStatement | forOfStatement
  | continueStatement | breakStatement | returnStatement | withStatement | switchStatement
  | labeledStatement | throwStatement | tryStatement | debuggerStatement | variableDeclaration
  | variableDeclarationList | functionDeclaration | classDeclaration | interfaceDeclaration
  | typeAliasDeclaration | enumDeclaration | importDeclaration | exportDeclaration
  | exportAssignment
  | caseClause | defaultClause | catchClause | enumMember | importClause | namespaceImport
  | namedImports | importSpecifier | namespaceExport | namedExports | exportSpecifier
  | jsxElement | jsxSelfClosingElement | jsxOpeningElement | jsxClosingElement | jsxFragment
  | jsxAttributesList | jsxAttribute | jsxSpreadAttribute | jsxExpression | jsxChildrenList
  | jsxNamespacedName | jsxTagNamePropertyAccess
deriving DecidableEq, Inhabited

namespace Kind

/-- All kinds, in order. -/
def all : List Kind := [
  .unknown, .endOfFileToken, .numericLiteral, .bigIntLiteral, .stringLiteral, .jsxText,
  .regularExpressionLiteral, .noSubstitutionTemplateLiteral, .templateHead, .templateMiddle,
  .templateTail, .openBraceToken, .closeBraceToken, .openParenToken, .closeParenToken,
  .openBracketToken, .closeBracketToken, .dotToken, .dotDotDotToken, .semicolonToken,
  .commaToken, .questionDotToken, .lessThanToken, .lessThanSlashToken, .greaterThanToken,
  .lessThanEqualsToken, .greaterThanEqualsToken, .equalsEqualsToken, .exclamationEqualsToken,
  .equalsEqualsEqualsToken, .exclamationEqualsEqualsToken, .equalsGreaterThanToken, .plusToken,
  .minusToken, .asteriskToken, .asteriskAsteriskToken, .slashToken, .percentToken,
  .plusPlusToken, .minusMinusToken, .lessThanLessThanToken, .greaterThanGreaterThanToken,
  .greaterThanGreaterThanGreaterThanToken, .ampersandToken, .barToken, .caretToken,
  .exclamationToken, .tildeToken, .ampersandAmpersandToken, .barBarToken, .questionToken,
  .colonToken, .atToken, .questionQuestionToken, .backtickToken, .hashToken, .equalsToken,
  .plusEqualsToken, .minusEqualsToken, .asteriskEqualsToken, .asteriskAsteriskEqualsToken,
  .slashEqualsToken, .percentEqualsToken, .lessThanLessThanEqualsToken,
  .greaterThanGreaterThanEqualsToken, .greaterThanGreaterThanGreaterThanEqualsToken,
  .ampersandEqualsToken, .barEqualsToken, .caretEqualsToken, .barBarEqualsToken,
  .ampersandAmpersandEqualsToken, .questionQuestionEqualsToken, .identifier, .privateIdentifier,
  .breakKeyword, .caseKeyword, .catchKeyword, .classKeyword, .constKeyword, .continueKeyword,
  .debuggerKeyword, .defaultKeyword, .deleteKeyword, .doKeyword, .elseKeyword, .enumKeyword,
  .exportKeyword, .extendsKeyword, .falseKeyword, .finallyKeyword, .forKeyword, .functionKeyword,
  .ifKeyword, .importKeyword, .inKeyword, .instanceOfKeyword, .newKeyword, .nullKeyword,
  .returnKeyword, .superKeyword, .switchKeyword, .thisKeyword, .throwKeyword, .trueKeyword,
  .tryKeyword, .typeOfKeyword, .varKeyword, .voidKeyword, .whileKeyword, .withKeyword,
  .implementsKeyword, .interfaceKeyword, .letKeyword, .packageKeyword, .privateKeyword,
  .protectedKeyword, .publicKeyword, .staticKeyword, .yieldKeyword, .abstractKeyword,
  .accessorKeyword, .asKeyword, .assertsKeyword, .anyKeyword, .asyncKeyword, .awaitKeyword,
  .booleanKeyword, .constructorKeyword, .declareKeyword, .getKeyword, .inferKeyword, .isKeyword,
  .keyOfKeyword, .moduleKeyword, .namespaceKeyword, .neverKeyword, .readonlyKeyword,
  .numberKeyword, .objectKeyword, .satisfiesKeyword, .setKeyword, .stringKeyword, .symbolKeyword,
  .typeKeyword, .undefinedKeyword, .uniqueKeyword, .unknownKeyword, .fromKeyword, .globalKeyword,
  .bigIntKeyword, .overrideKeyword, .ofKeyword, .scriptBody, .moduleBody, .qualifiedName,
  .computedPropertyName, .typeParameter, .formalParameter, .formalParameterList, .decorator,
  .propertySignature, .methodSignature, .callSignature, .constructSignature, .indexSignature,
  .typePredicate, .typeReference, .functionType, .constructorType, .typeQuery, .typeLiteral,
  .arrayType, .tupleType, .optionalType, .restType, .unionType, .intersectionType,
  .conditionalType, .inferType, .parenthesizedType, .thisType, .typeOperator, .indexedAccessType,
  .literalType, .arrayLiteralExpression, .objectLiteralExpression, .propertyAccessExpression,
  .elementAccessExpression, .callExpression, .newExpression, .taggedTemplateExpression,
  .parenthesizedExpression, .functionExpression, .arrowFunction, .arrowParameters, .argumentList,
  .prefixUnaryExpression, .postfixUnaryExpression, .binaryExpression, .assignmentExpression,
  .conditionalExpression, .templateExpression, .yieldExpression, .awaitExpression,
  .spreadElement, .classExpression, .omittedExpression, .asExpression, .satisfiesExpression,
  .nonNullExpression, .metaProperty, .templateSpan, .propertyAssignment,
  .shorthandPropertyAssignment, .methodDefinition, .getAccessor, .setAccessor, .constructor,
  .propertyDefinition, .semicolonClassElement, .classStaticBlock, .block, .emptyStatement,
  .variableStatement, .lexicalDeclaration, .expressionStatement, .ifStatement, .doStatement,
  .whileStatement, .forStatement, .forInStatement, .forOfStatement, .continueStatement,
  .breakStatement, .returnStatement, .withStatement, .switchStatement, .labeledStatement,
  .throwStatement, .tryStatement, .debuggerStatement, .variableDeclaration,
  .variableDeclarationList, .functionDeclaration, .classDeclaration, .interfaceDeclaration,
  .typeAliasDeclaration, .enumDeclaration, .importDeclaration, .exportDeclaration,
  .exportAssignment, .caseClause, .defaultClause, .catchClause, .enumMember, .importClause,
  .namespaceImport, .namedImports, .importSpecifier, .namespaceExport, .namedExports,
  .exportSpecifier, .jsxElement, .jsxSelfClosingElement, .jsxOpeningElement, .jsxClosingElement,
  .jsxFragment, .jsxAttributesList, .jsxAttribute, .jsxSpreadAttribute, .jsxExpression,
  .jsxChildrenList, .jsxNamespacedName, .jsxTagNamePropertyAccess]

/-- The place of a kind in the list of all kinds. -/
def index (k : Kind) : Nat := k.ctorIdx

/-- The written name of a kind. -/
def name : Kind → String
  | .unknown => "Unknown"
  | .endOfFileToken => "EndOfFileToken"
  | .numericLiteral => "NumericLiteral"
  | .bigIntLiteral => "BigIntLiteral"
  | .stringLiteral => "StringLiteral"
  | .jsxText => "JsxText"
  | .regularExpressionLiteral => "RegularExpressionLiteral"
  | .noSubstitutionTemplateLiteral => "NoSubstitutionTemplateLiteral"
  | .templateHead => "TemplateHead"
  | .templateMiddle => "TemplateMiddle"
  | .templateTail => "TemplateTail"
  | .openBraceToken => "OpenBraceToken"
  | .closeBraceToken => "CloseBraceToken"
  | .openParenToken => "OpenParenToken"
  | .closeParenToken => "CloseParenToken"
  | .openBracketToken => "OpenBracketToken"
  | .closeBracketToken => "CloseBracketToken"
  | .dotToken => "DotToken"
  | .dotDotDotToken => "DotDotDotToken"
  | .semicolonToken => "SemicolonToken"
  | .commaToken => "CommaToken"
  | .questionDotToken => "QuestionDotToken"
  | .lessThanToken => "LessThanToken"
  | .lessThanSlashToken => "LessThanSlashToken"
  | .greaterThanToken => "GreaterThanToken"
  | .lessThanEqualsToken => "LessThanEqualsToken"
  | .greaterThanEqualsToken => "GreaterThanEqualsToken"
  | .equalsEqualsToken => "EqualsEqualsToken"
  | .exclamationEqualsToken => "ExclamationEqualsToken"
  | .equalsEqualsEqualsToken => "EqualsEqualsEqualsToken"
  | .exclamationEqualsEqualsToken => "ExclamationEqualsEqualsToken"
  | .equalsGreaterThanToken => "EqualsGreaterThanToken"
  | .plusToken => "PlusToken"
  | .minusToken => "MinusToken"
  | .asteriskToken => "AsteriskToken"
  | .asteriskAsteriskToken => "AsteriskAsteriskToken"
  | .slashToken => "SlashToken"
  | .percentToken => "PercentToken"
  | .plusPlusToken => "PlusPlusToken"
  | .minusMinusToken => "MinusMinusToken"
  | .lessThanLessThanToken => "LessThanLessThanToken"
  | .greaterThanGreaterThanToken => "GreaterThanGreaterThanToken"
  | .greaterThanGreaterThanGreaterThanToken => "GreaterThanGreaterThanGreaterThanToken"
  | .ampersandToken => "AmpersandToken"
  | .barToken => "BarToken"
  | .caretToken => "CaretToken"
  | .exclamationToken => "ExclamationToken"
  | .tildeToken => "TildeToken"
  | .ampersandAmpersandToken => "AmpersandAmpersandToken"
  | .barBarToken => "BarBarToken"
  | .questionToken => "QuestionToken"
  | .colonToken => "ColonToken"
  | .atToken => "AtToken"
  | .questionQuestionToken => "QuestionQuestionToken"
  | .backtickToken => "BacktickToken"
  | .hashToken => "HashToken"
  | .equalsToken => "EqualsToken"
  | .plusEqualsToken => "PlusEqualsToken"
  | .minusEqualsToken => "MinusEqualsToken"
  | .asteriskEqualsToken => "AsteriskEqualsToken"
  | .asteriskAsteriskEqualsToken => "AsteriskAsteriskEqualsToken"
  | .slashEqualsToken => "SlashEqualsToken"
  | .percentEqualsToken => "PercentEqualsToken"
  | .lessThanLessThanEqualsToken => "LessThanLessThanEqualsToken"
  | .greaterThanGreaterThanEqualsToken => "GreaterThanGreaterThanEqualsToken"
  | .greaterThanGreaterThanGreaterThanEqualsToken => "GreaterThanGreaterThanGreaterThanEqualsToken"
  | .ampersandEqualsToken => "AmpersandEqualsToken"
  | .barEqualsToken => "BarEqualsToken"
  | .caretEqualsToken => "CaretEqualsToken"
  | .barBarEqualsToken => "BarBarEqualsToken"
  | .ampersandAmpersandEqualsToken => "AmpersandAmpersandEqualsToken"
  | .questionQuestionEqualsToken => "QuestionQuestionEqualsToken"
  | .identifier => "Identifier"
  | .privateIdentifier => "PrivateIdentifier"
  | .breakKeyword => "BreakKeyword"
  | .caseKeyword => "CaseKeyword"
  | .catchKeyword => "CatchKeyword"
  | .classKeyword => "ClassKeyword"
  | .constKeyword => "ConstKeyword"
  | .continueKeyword => "ContinueKeyword"
  | .debuggerKeyword => "DebuggerKeyword"
  | .defaultKeyword => "DefaultKeyword"
  | .deleteKeyword => "DeleteKeyword"
  | .doKeyword => "DoKeyword"
  | .elseKeyword => "ElseKeyword"
  | .enumKeyword => "EnumKeyword"
  | .exportKeyword => "ExportKeyword"
  | .extendsKeyword => "ExtendsKeyword"
  | .falseKeyword => "FalseKeyword"
  | .finallyKeyword => "FinallyKeyword"
  | .forKeyword => "ForKeyword"
  | .functionKeyword => "FunctionKeyword"
  | .ifKeyword => "IfKeyword"
  | .importKeyword => "ImportKeyword"
  | .inKeyword => "InKeyword"
  | .instanceOfKeyword => "InstanceOfKeyword"
  | .newKeyword => "NewKeyword"
  | .nullKeyword => "NullKeyword"
  | .returnKeyword => "ReturnKeyword"
  | .superKeyword => "SuperKeyword"
  | .switchKeyword => "SwitchKeyword"
  | .thisKeyword => "ThisKeyword"
  | .throwKeyword => "ThrowKeyword"
  | .trueKeyword => "TrueKeyword"
  | .tryKeyword => "TryKeyword"
  | .typeOfKeyword => "TypeOfKeyword"
  | .varKeyword => "VarKeyword"
  | .voidKeyword => "VoidKeyword"
  | .whileKeyword => "WhileKeyword"
  | .withKeyword => "WithKeyword"
  | .implementsKeyword => "ImplementsKeyword"
  | .interfaceKeyword => "InterfaceKeyword"
  | .letKeyword => "LetKeyword"
  | .packageKeyword => "PackageKeyword"
  | .privateKeyword => "PrivateKeyword"
  | .protectedKeyword => "ProtectedKeyword"
  | .publicKeyword => "PublicKeyword"
  | .staticKeyword => "StaticKeyword"
  | .yieldKeyword => "YieldKeyword"
  | .abstractKeyword => "AbstractKeyword"
  | .accessorKeyword => "AccessorKeyword"
  | .asKeyword => "AsKeyword"
  | .assertsKeyword => "AssertsKeyword"
  | .anyKeyword => "AnyKeyword"
  | .asyncKeyword => "AsyncKeyword"
  | .awaitKeyword => "AwaitKeyword"
  | .booleanKeyword => "BooleanKeyword"
  | .constructorKeyword => "ConstructorKeyword"
  | .declareKeyword => "DeclareKeyword"
  | .getKeyword => "GetKeyword"
  | .inferKeyword => "InferKeyword"
  | .isKeyword => "IsKeyword"
  | .keyOfKeyword => "KeyOfKeyword"
  | .moduleKeyword => "ModuleKeyword"
  | .namespaceKeyword => "NamespaceKeyword"
  | .neverKeyword => "NeverKeyword"
  | .readonlyKeyword => "ReadonlyKeyword"
  | .numberKeyword => "NumberKeyword"
  | .objectKeyword => "ObjectKeyword"
  | .satisfiesKeyword => "SatisfiesKeyword"
  | .setKeyword => "SetKeyword"
  | .stringKeyword => "StringKeyword"
  | .symbolKeyword => "SymbolKeyword"
  | .typeKeyword => "TypeKeyword"
  | .undefinedKeyword => "UndefinedKeyword"
  | .uniqueKeyword => "UniqueKeyword"
  | .unknownKeyword => "UnknownKeyword"
  | .fromKeyword => "FromKeyword"
  | .globalKeyword => "GlobalKeyword"
  | .bigIntKeyword => "BigIntKeyword"
  | .overrideKeyword => "OverrideKeyword"
  | .ofKeyword => "OfKeyword"
  | .scriptBody => "ScriptBody"
  | .moduleBody => "ModuleBody"
  | .qualifiedName => "QualifiedName"
  | .computedPropertyName => "ComputedPropertyName"
  | .typeParameter => "TypeParameter"
  | .formalParameter => "FormalParameter"
  | .formalParameterList => "FormalParameterList"
  | .decorator => "Decorator"
  | .propertySignature => "PropertySignature"
  | .methodSignature => "MethodSignature"
  | .callSignature => "CallSignature"
  | .constructSignature => "ConstructSignature"
  | .indexSignature => "IndexSignature"
  | .typePredicate => "TypePredicate"
  | .typeReference => "TypeReference"
  | .functionType => "FunctionType"
  | .constructorType => "ConstructorType"
  | .typeQuery => "TypeQuery"
  | .typeLiteral => "TypeLiteral"
  | .arrayType => "ArrayType"
  | .tupleType => "TupleType"
  | .optionalType => "OptionalType"
  | .restType => "RestType"
  | .unionType => "UnionType"
  | .intersectionType => "IntersectionType"
  | .conditionalType => "ConditionalType"
  | .inferType => "InferType"
  | .parenthesizedType => "ParenthesizedType"
  | .thisType => "ThisType"
  | .typeOperator => "TypeOperator"
  | .indexedAccessType => "IndexedAccessType"
  | .literalType => "LiteralType"
  | .arrayLiteralExpression => "ArrayLiteralExpression"
  | .objectLiteralExpression => "ObjectLiteralExpression"
  | .propertyAccessExpression => "PropertyAccessExpression"
  | .elementAccessExpression => "ElementAccessExpression"
  | .callExpression => "CallExpression"
  | .newExpression => "NewExpression"
  | .taggedTemplateExpression => "TaggedTemplateExpression"
  | .parenthesizedExpression => "ParenthesizedExpression"
  | .functionExpression => "FunctionExpression"
  | .arrowFunction => "ArrowFunction"
  | .arrowParameters => "ArrowParameters"
  | .argumentList => "ArgumentList"
  | .prefixUnaryExpression => "PrefixUnaryExpression"
  | .postfixUnaryExpression => "PostfixUnaryExpression"
  | .binaryExpression => "BinaryExpression"
  | .assignmentExpression => "AssignmentExpression"
  | .conditionalExpression => "ConditionalExpression"
  | .templateExpression => "TemplateExpression"
  | .yieldExpression => "YieldExpression"
  | .awaitExpression => "AwaitExpression"
  | .spreadElement => "SpreadElement"
  | .classExpression => "ClassExpression"
  | .omittedExpression => "OmittedExpression"
  | .asExpression => "AsExpression"
  | .satisfiesExpression => "SatisfiesExpression"
  | .nonNullExpression => "NonNullExpression"
  | .metaProperty => "MetaProperty"
  | .templateSpan => "TemplateSpan"
  | .propertyAssignment => "PropertyAssignment"
  | .shorthandPropertyAssignment => "ShorthandPropertyAssignment"
  | .methodDefinition => "MethodDefinition"
  | .getAccessor => "GetAccessor"
  | .setAccessor => "SetAccessor"
  | .constructor => "Constructor"
  | .propertyDefinition => "PropertyDefinition"
  | .semicolonClassElement => "SemicolonClassElement"
  | .classStaticBlock => "ClassStaticBlock"
  | .block => "Block"
  | .emptyStatement => "EmptyStatement"
  | .variableStatement => "VariableStatement"
  | .lexicalDeclaration => "LexicalDeclaration"
  | .expressionStatement => "ExpressionStatement"
  | .ifStatement => "IfStatement"
  | .doStatement => "DoStatement"
  | .whileStatement => "WhileStatement"
  | .forStatement => "ForStatement"
  | .forInStatement => "ForInStatement"
  | .forOfStatement => "ForOfStatement"
  | .continueStatement => "ContinueStatement"
  | .breakStatement => "BreakStatement"
  | .returnStatement => "ReturnStatement"
  | .withStatement => "WithStatement"
  | .switchStatement => "SwitchStatement"
  | .labeledStatement => "LabeledStatement"
  | .throwStatement => "ThrowStatement"
  | .tryStatement => "TryStatement"
  | .debuggerStatement => "DebuggerStatement"
  | .variableDeclaration => "VariableDeclaration"
  | .variableDeclarationList => "VariableDeclarationList"
  | .functionDeclaration => "FunctionDeclaration"
  | .classDeclaration => "ClassDeclaration"
  | .interfaceDeclaration => "InterfaceDeclaration"
  | .typeAliasDeclaration => "TypeAliasDeclaration"
  | .enumDeclaration => "EnumDeclaration"
  | .importDeclaration => "ImportDeclaration"
  | .exportDeclaration => "ExportDeclaration"
  | .exportAssignment => "ExportAssignment"
  | .caseClause => "CaseClause"
  | .defaultClause => "DefaultClause"
  | .catchClause => "CatchClause"
  | .enumMember => "EnumMember"
  | .importClause => "ImportClause"
  | .namespaceImport => "NamespaceImport"
  | .namedImports => "NamedImports"
  | .importSpecifier => "ImportSpecifier"
  | .namespaceExport => "NamespaceExport"
  | .namedExports => "NamedExports"
  | .exportSpecifier => "ExportSpecifier"
  | .jsxElement => "JsxElement"
  | .jsxSelfClosingElement => "JsxSelfClosingElement"
  | .jsxOpeningElement => "JsxOpeningElement"
  | .jsxClosingElement => "JsxClosingElement"
  | .jsxFragment => "JsxFragment"
  | .jsxAttributesList => "JsxAttributesList"
  | .jsxAttribute => "JsxAttribute"
  | .jsxSpreadAttribute => "JsxSpreadAttribute"
  | .jsxExpression => "JsxExpression"
  | .jsxChildrenList => "JsxChildrenList"
  | .jsxNamespacedName => "JsxNamespacedName"
  | .jsxTagNamePropertyAccess => "JsxTagNamePropertyAccess"

/-- The kind that stands at a place of the list. -/
def ofIndex? (n : Nat) : Option Kind := all[n]?

/-- The kind with a written name. -/
def ofName? (text : String) : Option Kind := all.find? (·.name == text)

end Kind
end EcmaSyntax
